import FakeData.Generator
import FakeData.Random.ChaCha
import FakeData.Yaml.Record
import FakeData.Yaml.Writer

/-!
# Configurations

Where datasets are, which locale to use, and the seed. A configuration is read from a YAML text,
and settings given elsewhere replace those of the text. What is not set has a default.
-/
namespace FakeData

structure Config where
  datasetRoot : Option String
  country : Option Country
  language : Option Language
  seed : Option UInt64
  deriving DecidableEq, Repr

inductive ConfigError where
  | unreadable (fault : ReadFault)
  | badRecord (fault : Yaml.RecordFault)
  | locale (error : LocaleError)
  deriving DecidableEq, Repr

namespace Config

def unset : Config := ⟨none, none, none, none⟩

open Yaml.Node in
def schema : Yaml.Schema Config where
  name := "DatagenConfig"
  fields := ["dataset_root", "country", "language", "seed"]
  set field value config :=
    match field with
    | "dataset_root" =>
      (readOptional readPath value).map fun datasetRoot => { config with datasetRoot }
    | "country" =>
      (readOptional (readCode Country.ofCode? (Country.all.map Country.code)) value).map
        fun country => { config with country }
    | "language" =>
      (readOptional (readCode Language.ofCode? (Language.all.map Language.code)) value).map
        fun language => { config with language }
    | "seed" => (readOptional readUnsigned value).map fun seed => { config with seed }
    | _ => .ok config

def ofText (text : String) : Except ConfigError Config :=
  match schema.read [] unset text with
  | .ok config => .ok config
  | .error fault => .error (.badRecord fault)

def toText (config : Config) : String :=
  let field (name : String) (value : Option (List Char)) : List Char :=
    Yaml.writeField name (value.getD Yaml.writeNothing)
  .ofList
    (field "dataset_root" (config.datasetRoot.map Yaml.writeText) ++
      field "country" (config.country.map fun country => Yaml.writeText country.code) ++
      field "language" (config.language.map fun language => Yaml.writeText language.code) ++
      field "seed" (config.seed.map fun seed => (toString seed).toList ++ ['\n']))

/-- The configuration in which the settings of another one take precedence. -/
def overriddenBy (config settings : Config) : Config where
  datasetRoot := settings.datasetRoot <|> config.datasetRoot
  country := settings.country <|> config.country
  language := settings.language <|> config.language
  seed := settings.seed <|> config.seed

/-- The configuration of a file, if one is named, overridden by settings. -/
def load (files : Files) (path : Option String) (settings : Config) : Except ConfigError Config :=
  match path with
  | none => .ok (unset.overriddenBy settings)
  | some path =>
    match files.readText path with
    | .error fault => .error (.unreadable fault)
    | .ok text => (ofText text).map (·.overriddenBy settings)

def root (config : Config) : String := config.datasetRoot.getD DatasetStore.standardRoot

def locale (config : Config) : Except LocaleError Locale :=
  Locale.resolve config.country config.language

def generator (config : Config) (registries : Registries) (registry : Nat) :
    Except ConfigError (Generator × Registries) :=
  match config.locale with
  | .error error => .error (.locale error)
  | .ok locale => .ok (Generator.new registries registry ⟨config.root⟩ locale)

/-- The stream of the seed, or of another key if there is none. -/
def stream (config : Config) (key : Random.Key) : Random.WordStream :=
  match config.seed with
  | some seed => .ofSeed seed
  | none => .ofKey key

end Config

namespace ConfigError

/-- What went wrong underneath. A text that breaks the rules of its format is only said to do
so. -/
def cause : ConfigError → String
  | .unreadable fault => fault.message
  | .badRecord fault => fault.message?.getD "malformed document"
  | .locale error => error.message

def message (error : ConfigError) : String :=
  match error with
  | .unreadable _ => "Failed to read config file: " ++ error.cause
  | .badRecord _ => "Failed to parse YAML: " ++ error.cause
  | .locale _ => "Invalid locale: " ++ error.cause

end ConfigError

end FakeData
