import FakeData.Locale.Json
import FakeData.Yaml.Record
import FakeData.Yaml.Writer

/-!
# Locales in YAML texts

A locale is written as a record with its two codes, which are exact here.
-/
namespace FakeData.LocaleRecord

def schema : Yaml.Schema Parts where
  name := "Locale"
  fields := ["country", "language"]
  set field value parts :=
    match field with
    | "country" =>
      (value.readCode countries.ofCode? countries.known).map
        fun country => { parts with country := some country }
    | "language" =>
      (value.readCode languages.ofCode? languages.known).map
        fun language => { parts with language := some language }
    | _ => .ok parts

def ofYaml (text : String) : Except Yaml.RecordFault Locale :=
  match schema.read schema.fields .none text with
  | .error fault => .error fault
  | .ok ⟨some country, some language⟩ => .ok ⟨country, language⟩
  | .ok _ => .error .malformed

def toYaml (locale : Locale) : String :=
  .ofList
    (Yaml.writeField "country" (Yaml.writeText locale.country.code) ++
      Yaml.writeField "language" (Yaml.writeText locale.language.code))

end FakeData.LocaleRecord
