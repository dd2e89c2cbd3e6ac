import FakeData.Path
import FakeData.Text.Blank
import FakeData.Text.Lowercase

/-!
# Locales

A locale is a country and a language. Some countries and languages are each other's native
partner, and a missing half of a locale is filled in from that pairing.
-/
namespace FakeData

inductive Country where
  | usa
  | ukraine
  | canada
  deriving DecidableEq, Repr

inductive Language where
  | english
  | ukrainian
  | french
  deriving DecidableEq, Repr

inductive LocaleError where
  | noNativeLanguage (country : Country)
  | noNativeCountry (language : Language)
  | missingArguments (country language : Bool)
  | unknownCountry (text : String)
  | unknownLanguage (text : String)
  deriving DecidableEq, Repr

namespace Country

def all : List Country := [.usa, .ukraine, .canada]

def code : Country → String
  | .usa => "us"
  | .ukraine => "ua"
  | .canada => "ca"

/-- The language paired with the country. Canada has two official languages and no pairing. -/
def nativeLanguage? : Country → Option Language
  | .usa => some .english
  | .ukraine => some .ukrainian
  | .canada => none

/-- The country with exactly this code. -/
def ofCode? (code : String) : Option Country := all.find? (·.code == code)

/-- Reads a code in either letter case, with blanks around it. -/
def parse (text : String) : Except LocaleError Country :=
  match ofCode? (Text.lowercase (Text.trim text)) with
  | some country => .ok country
  | none => .error (.unknownCountry text)

end Country

namespace Language

def all : List Language := [.english, .ukrainian, .french]

def code : Language → String
  | .english => "en"
  | .ukrainian => "ukr"
  | .french => "fr"

/-- The country paired with the language. French has no pairing. -/
def nativeCountry? : Language → Option Country
  | .english => some .usa
  | .ukrainian => some .ukraine
  | .french => none

def ofCode? (code : String) : Option Language := all.find? (·.code == code)

def parse (text : String) : Except LocaleError Language :=
  match ofCode? (Text.lowercase (Text.trim text)) with
  | some language => .ok language
  | none => .error (.unknownLanguage text)

end Language

namespace LocaleError

def message : LocaleError → String
  | .noNativeLanguage country =>
    "Country '" ++ country.code ++ "' has no native language pairing registered"
  | .noNativeCountry language =>
    "Language '" ++ language.code ++ "' has no native country pairing registered"
  | .missingArguments country language =>
    "Missing locale arguments: " ++
      ", ".intercalate ((if country then ["country"] else []) ++
        (if language then ["language"] else []))
  | .unknownCountry text => "Unknown country code: " ++ text
  | .unknownLanguage text => "Unknown language code: " ++ text

end LocaleError

structure Locale where
  country : Country
  language : Language
  deriving DecidableEq, Repr

namespace Locale

/-- The locale used when nothing else is asked for. -/
def standard : Locale := ⟨.usa, .english⟩

def inferFromCountry (country : Country) : Except LocaleError Locale :=
  match country.nativeLanguage? with
  | some language => .ok ⟨country, language⟩
  | none => .error (.noNativeLanguage country)

def inferFromLanguage (language : Language) : Except LocaleError Locale :=
  match language.nativeCountry? with
  | some country => .ok ⟨country, language⟩
  | none => .error (.noNativeCountry language)

/-- Both parts, or an error that says which are absent. -/
def ofParts : Option Country → Option Language → Except LocaleError Locale
  | some country, some language => .ok ⟨country, language⟩
  | country, language => .error (.missingArguments country.isNone language.isNone)

/-- Both parts as given, one part with its native partner, or the standard locale. -/
def resolve : Option Country → Option Language → Except LocaleError Locale
  | some country, some language => .ok ⟨country, language⟩
  | some country, none => inferFromCountry country
  | none, some language => inferFromLanguage language
  | none, none => .ok standard

def display (locale : Locale) : String := locale.country.code ++ "_" ++ locale.language.code

/-- Where the locale keeps its candidates for a context:
`<language>/<context>/<country>_<context>.json`. -/
def datasetFile (locale : Locale) (context : String) : String :=
  Path.join (Path.join locale.language.code context)
    (locale.country.code ++ "_" ++ context ++ ".json")

end Locale

end FakeData
