import FakeData.Resolution
import FakeData.Synthesis

/-!
# Providers

The values that a generator makes: names from the `name` datasets of a locale, email addresses
built from names or from random characters, and passwords.
-/
namespace FakeData

inductive Task where
  | firstName
  | lastName
  | fullName
  | localPart (uppercase digits : Bool)
  | fullNameLocalPart (separator : String)
  | domainName
  | email (uppercase digits : Bool)
  | emailWithDomain (uppercase digits : Bool) (domain : String)
  | emailWithPersonName (separator domain : Option String)
  | password (length : Nat) (classes : CharClasses)
  | resolve (request : String) (selection : Selection)
  deriving DecidableEq, Repr

/-- Whether a task asks for a text that cannot be held. -/
def Task.isExcessive : Task → Bool
  | .password length _ => Synthesis.maxLength < length
  | _ => false

namespace Provider

def firstNameRequest : String := "name(/generator/first_name)"

def lastNameRequest : String := "name(/generator/last_name)"

def fullNameRequest : String := "name(/generator/first_name|/generator/last_name)"

def localPartLength : Nat := 8

def domainLength : Nat := 4

def standardSeparator : String := "_"

/-- A random local part, without special characters. -/
def localPart (uppercase digits : Bool) : Draw String :=
  synthesize ⟨uppercase, digits, false⟩ localPartLength

/-- A random domain such as `@abcd.com`. -/
def domainName : Draw String :=
  (synthesize .lowercaseOnly domainLength).andThen fun label => .done ("@" ++ label ++ ".com")

def domainOr : Option String → Draw String
  | some domain => .done domain
  | none => domainName

/-- A first and a last name from the same place of their maps. -/
def fullName (files : Files) (store : DatasetStore) (locale : Locale) :
    Draw (Except Failure String) :=
  FakeData.resolve files store locale fullNameRequest .correlated

/-- A full name with its spaces replaced. -/
def fullNameLocalPart (files : Files) (store : DatasetStore) (locale : Locale)
    (separator : String) : Draw (Except Failure String) :=
  (fullName files store locale).andThen fun name =>
    .done (name.map (Text.replaceChar ' ' separator))

/-- A local part at a domain that is settled after it. -/
def atDomain (localPart : Draw (Except Failure String)) (domain : Draw String) :
    Draw (Except Failure String) :=
  localPart.andThen fun
    | .error failure => .done (.error failure)
    | .ok localText => domain.andThen fun domainText => .done (.ok (localText ++ domainText))

def always (draw : Draw String) : Draw (Except Failure String) := draw.andThen (.done <| .ok ·)

end Provider

open Provider in
/-- The request that a task resolves, if it reads a dataset. -/
def Task.request? : Task → Option String
  | .firstName => some firstNameRequest
  | .lastName => some lastNameRequest
  | .fullName | .fullNameLocalPart _ | .emailWithPersonName _ _ => some fullNameRequest
  | .resolve request _ => some request
  | .localPart _ _ | .domainName | .email _ _ | .emailWithDomain _ _ _ | .password _ _ => none

open Provider in
def Task.draw (files : Files) (store : DatasetStore) (locale : Locale) :
    Task → Draw (Except Failure String)
  | .firstName => FakeData.resolve files store locale firstNameRequest .independent
  | .lastName => FakeData.resolve files store locale lastNameRequest .independent
  | .fullName => Provider.fullName files store locale
  | .localPart uppercase digits => always (Provider.localPart uppercase digits)
  | .fullNameLocalPart separator => Provider.fullNameLocalPart files store locale separator
  | .domainName => always Provider.domainName
  | .email uppercase digits =>
    atDomain (always (Provider.localPart uppercase digits)) Provider.domainName
  | .emailWithDomain uppercase digits domain =>
    atDomain (always (Provider.localPart uppercase digits)) (.done domain)
  | .emailWithPersonName separator domain =>
    atDomain (Provider.fullNameLocalPart files store locale (separator.getD standardSeparator))
      (domainOr domain)
  | .password length classes => always (synthesize classes length)
  | .resolve request selection => FakeData.resolve files store locale request selection

end FakeData
