import FakeData.Proofs.CommandLine
import FakeData.Proofs.Config.Layers

/-!
# Precedence on the command line

Options override the variables of the environment, and these override the file, each setting by
itself. A run depends on what is merged, on its task and count, and on the one dataset that the
task reads. So a setting may be given in another layer, and what is hidden may be anything.
-/
namespace FakeData

variable {files otherFiles : Files}

/-! ## Which settings are given -/

namespace Setting

open CommandLine

def optionName : Setting → String
  | .datasetRoot => "dataset-root"
  | .country => "country"
  | .language => "language"
  | .seed => "seed"

def variableName : Setting → String
  | .datasetRoot => "DATAGEN_DATASET_ROOT"
  | .country => "DATAGEN_COUNTRY"
  | .language => "DATAGEN_LANGUAGE"
  | .seed => "DATAGEN_SEED"

def read : (setting : Setting) → String → Option setting.Value
  | .datasetRoot => path?
  | .country => fun text => (Country.parse text).toOption
  | .language => fun text => (Language.parse text).toOption
  | .seed => Number.word?

end Setting

namespace CommandLine

variable {env otherEnv : Environment} {args otherArgs : List String}
  {invocation other : Invocation} {config file otherFile : Config} {session : Session}

def settingsOf (text? : Setting → Option String) : Config where
  datasetRoot := (text? .datasetRoot).bind (Setting.read .datasetRoot)
  country := (text? .country).bind (Setting.read .country)
  language := (text? .language).bind (Setting.read .language)
  seed := (text? .seed).bind (Setting.read .seed)

theorem get_settingsOf (text? : Setting → Option String) (setting : Setting) :
    (settingsOf text?).get setting = (text? setting).bind setting.read := by
  cases setting <;> rfl

def leadingWords (args : List String) : Words :=
  ((readWords grammar true args .none).map Prod.fst).getD .none

def optionSettings (args : List String) : Config :=
  settingsOf fun setting => (leadingWords args).option? setting.optionName

def variableSettings (env : Environment) : Config :=
  settingsOf fun setting => env setting.variableName

/-- A variable counts if there is no option, and only then it has to be readable. -/
theorem eq_or_of_setting? {α : Type} {words : Words} {option name : String}
    {read : String → Option α} {value : Option α}
    (h : setting? words env option name read = some value) :
    value = ((words.option? option).bind read).or ((env name).bind read) := by
  rw [setting?] at h
  cases hoption : words.option? option with
  | some text =>
    rw [hoption] at h
    obtain ⟨v, hv, rfl⟩ := Option.map_eq_some_iff.mp h
    simp [hv]
  | none =>
    rw [hoption] at h
    cases henv : env name with
    | none =>
      rw [henv] at h
      cases h
      rfl
    | some text =>
      rw [henv] at h
      obtain ⟨v, hv, rfl⟩ := Option.map_eq_some_iff.mp h
      simp [hv]

/-- An invocation has the settings of its options, and those of the variables for the rest. -/
theorem settings_of_parse (parsed : Invocation.parse env args = some invocation) :
    invocation.settings = (variableSettings env).overriddenBy (optionSettings args) := by
  simp only [Invocation.parse, Option.bind_eq_bind, Option.bind_eq_some_iff] at parsed
  obtain ⟨⟨words, rest⟩, hwords, h⟩ := parsed
  have hleading : leadingWords args = words := by
    rw [leadingWords, hwords]
    rfl
  cases rest with
  | nil => simp at h
  | cons name taskArgs =>
    simp only [Option.bind_eq_some_iff] at h
    obtain ⟨taskGrammar, -, taskWords, -, task, -, configPath, -, datasetRoot, hroot, country,
      hcountry, language, hlanguage, seed, hseed, count, -, ⟨⟩⟩ := h
    apply Config.eq_of_get
    intro setting
    rw [Config.get_overriddenBy, optionSettings, variableSettings, get_settingsOf, get_settingsOf,
      hleading]
    cases setting with
    | datasetRoot => exact eq_or_of_setting? hroot
    | country => exact eq_or_of_setting? hcountry
    | language => exact eq_or_of_setting? hlanguage
    | seed => exact eq_or_of_setting? hseed

/-- The environments agree on all variables that are not hidden by an option. -/
structure SameBelow (args : List String) (env otherEnv : Environment) : Prop where
  configPath : (leadingWords args).option? "config" = none →
    otherEnv "DATAGEN_CONFIG" = env "DATAGEN_CONFIG"
  settings : ∀ setting : Setting, (leadingWords args).option? setting.optionName = none →
    otherEnv setting.variableName = env setting.variableName

theorem setting?_congr {α : Type} {words : Words} {option name : String}
    (same : words.option? option = none → otherEnv name = env name) (read : String → Option α) :
    setting? words otherEnv option name read = setting? words env option name read := by
  rw [setting?, setting?]
  cases hoption : words.option? option with
  | some text => rfl
  | none => rw [same hoption]

/-- A hidden variable need not even be readable. -/
theorem parse_congr (same : SameBelow args env otherEnv) :
    Invocation.parse otherEnv args = Invocation.parse env args := by
  cases hwords : readWords grammar true args .none with
  | none => simp [Invocation.parse, hwords]
  | some read =>
    have hleading : leadingWords args = read.1 := by
      rw [leadingWords, hwords]
      rfl
    have hconfig := same.configPath
    have hroot := same.settings .datasetRoot
    have hcountry := same.settings .country
    have hlanguage := same.settings .language
    have hseed := same.settings .seed
    rw [hleading] at hconfig hroot hcountry hlanguage hseed
    simp only [Setting.optionName, Setting.variableName] at hroot hcountry hlanguage hseed
    simp only [Invocation.parse, hwords, Option.bind_eq_bind, Option.bind_some,
      setting?_congr hconfig, setting?_congr hroot, setting?_congr hcountry,
      setting?_congr hlanguage, setting?_congr hseed]

/-- The settings in the file that is named, if one is. -/
def FileHolds (files : Files) (path? : Option String) (file : Config) : Prop :=
  match path? with
  | none => file = .unset
  | some path => ∃ text, files.readText path = .ok text ∧ Config.ofText text = .ok file

theorem FileHolds.load {path? : Option String} (holds : FileHolds files path? file)
    (settings : Config) : Config.load files path? settings = .ok (file.overriddenBy settings) := by
  cases path? with
  | none =>
    obtain rfl := holds
    rfl
  | some path =>
    obtain ⟨text, hread, htext⟩ := holds
    simp only [Config.load, hread, htext, Except.map]

def layersOf (env : Environment) (args : List String) (file : Config) : Layers
  | .commandLine => optionSettings args
  | .environment => variableSettings env
  | .file => file

/-- The configuration in effect is merged from the layers. -/
theorem load_layers (parsed : Invocation.parse env args = some invocation)
    (holds : FileHolds files invocation.configPath file) :
    Config.load files invocation.configPath invocation.settings =
      .ok (layersOf env args file).merged := by
  rw [holds.load, settings_of_parse parsed, ← Config.overriddenBy_overriddenBy]
  rfl

end CommandLine

/-! ## Which files are read -/

section Reading

variable {store : DatasetStore} {locale : Locale}

/-- A request reads one file. -/
theorem resolve_congr {request : String}
    (same : ∀ parsed, Request.parse request = .ok parsed →
      otherFiles (store.locate locale parsed) = files (store.locate locale parsed))
    (selection : Selection) :
    resolve otherFiles store locale request selection =
      resolve files store locale request selection := by
  cases hparse : Request.parse request with
  | error fault => simp only [resolve, hparse]
  | ok parsed =>
    have hread : otherFiles.readText (store.locate locale parsed) =
        files.readText (store.locate locale parsed) := by
      rw [Files.readText, Files.readText, same parsed hparse]
    simp only [resolve, hparse, DatasetStore.valueMaps, Dataset.load, hread]

/-- A task reads the file of its request, if it has one. -/
theorem draw_congr {task : Task}
    (same : ∀ request, task.request? = some request → ∀ parsed,
      Request.parse request = .ok parsed →
      otherFiles (store.locate locale parsed) = files (store.locate locale parsed)) :
    task.draw otherFiles store locale = task.draw files store locale := by
  cases task with
  | localPart | domainName | email | emailWithDomain | password => rfl
  | firstName => exact resolve_congr (same _ rfl) _
  | lastName => exact resolve_congr (same _ rfl) _
  | fullName => exact resolve_congr (same _ rfl) _
  | resolve request selection => exact resolve_congr (same _ rfl) _
  | fullNameLocalPart separator =>
    have hname : Provider.fullName otherFiles store locale = Provider.fullName files store locale :=
      resolve_congr (same _ rfl) _
    simp only [Task.draw, Provider.fullNameLocalPart, hname]
  | emailWithPersonName separator domain =>
    have hname : Provider.fullName otherFiles store locale = Provider.fullName files store locale :=
      resolve_congr (same _ rfl) _
    simp only [Task.draw, Provider.fullNameLocalPart, hname]

theorem Generator.makeMany_congr {σ : Type} [IndexSource σ] {generator : Generator} {task : Task}
    (same : generator.make otherFiles task = generator.make files task) (count : Nat)
    (source : σ) :
    generator.makeMany otherFiles task count source =
      generator.makeMany files task count source := by
  induction count generalizing source with
  | zero => rfl
  | succ count ih => simp only [makeMany_succ, same, ih]

end Reading

namespace CommandLine

variable {env otherEnv : Environment} {args otherArgs : List String}
  {invocation other : Invocation} {config file otherFile : Config} {session : Session}

theorem Invocation.Builds.datasetPath?_eq (builds : invocation.Builds files config session)
    {request : String} {parsed : Request} (hrequest : invocation.task.request? = some request)
    (hparse : Request.parse request = .ok parsed) :
    invocation.datasetPath? files =
      some (session.generator.store.locate session.generator.locale parsed) := by
  simp [datasetPath?, builds.loaded, builds.built, hrequest, hparse, Except.toOption]

theorem Invocation.datasetPath?_eq_none (h : invocation.task.request? = none) :
    invocation.datasetPath? files = none := by
  simp [datasetPath?, h]

/-- Two invocations for the same task that come to the same configuration have the same outcome, if
the dataset of the task is the same. -/
theorem Invocation.run_congr
    (loaded : Config.load files invocation.configPath invocation.settings = .ok config)
    (otherLoaded : Config.load otherFiles other.configPath other.settings = .ok config)
    (task : other.task = invocation.task) (count : other.count = invocation.count)
    (dataset : ∀ path, invocation.datasetPath? files = some path → otherFiles path = files path)
    (key : Random.Key) : other.run otherFiles key = invocation.run files key := by
  cases hbuild : config.generator .empty registry with
  | error error => simp only [run, loaded, otherLoaded, hbuild]
  | ok built =>
    have builds : invocation.Builds files config ⟨built.1, built.2⟩ := ⟨loaded, hbuild⟩
    have same : built.1.make otherFiles invocation.task = built.1.make files invocation.task := by
      apply draw_congr
      intro request hrequest parsed hparse
      exact dataset _ (builds.datasetPath?_eq hrequest hparse)
    simp only [run, loaded, otherLoaded, hbuild, task, count, Generator.makeMany_congr same]

/-- A generator has the locale and the store of its configuration. -/
theorem generator_eq_ok_iff {built : Generator × Registries} :
    config.generator .empty registry = .ok built ↔
      ∃ locale, Locale.Completes config.country config.language locale ∧
        Generator.new .empty registry ⟨config.root⟩ locale = built := by
  rw [Config.generator, Config.locale]
  constructor
  · intro h
    split at h
    · cases h
    · next locale hlocale => exact ⟨locale, Locale.resolve_eq_ok_iff.mp hlocale, Except.ok.inj h⟩
  · rintro ⟨locale, completes, rfl⟩
    rw [Locale.resolve_eq_ok_iff.mpr completes]

/-- There is a generator for a locale exactly when this completes what is set. -/
theorem Invocation.exists_builds_iff {locale : Locale}
    (loaded : Config.load files invocation.configPath invocation.settings = .ok config) :
    (∃ session, invocation.Builds files config session ∧ session.generator.locale = locale) ↔
      Locale.Completes config.country config.language locale := by
  constructor
  · rintro ⟨session, builds, rfl⟩
    obtain ⟨locale, completes, hnew⟩ := generator_eq_ok_iff.mp builds.built
    have hgenerator := congrArg Prod.fst hnew
    simp only at hgenerator
    rw [← hgenerator]
    exact completes
  · intro completes
    have built := generator_eq_ok_iff.mpr ⟨locale, completes, rfl⟩
    exact ⟨⟨_, _⟩, ⟨loaded, built⟩, rfl⟩

theorem Invocation.Builds.store_eq (builds : invocation.Builds files config session) :
    session.generator.store = ⟨config.root⟩ := by
  obtain ⟨locale, -, hnew⟩ := generator_eq_ok_iff.mp builds.built
  have hgenerator := congrArg Prod.fst hnew
  simp only at hgenerator
  rw [← hgenerator]
  rfl

/-! ## The law of precedence -/

/-- What a command line, its environment and its file give is merged setting by setting: the option
counts before the variable, and this before the file. The locale is computed from what was merged,
and so are the store and the stream, with their defaults. A variable that is hidden by an option
may be anything. A run stays as it is if settings move to other layers, or if others change that
are hidden. -/
theorem run_follows_precedence (parsed : Invocation.parse env args = some invocation)
    (holds : FileHolds files invocation.configPath file) :
    let layers := layersOf env args file
    let config := layers.merged
    Config.load files invocation.configPath invocation.settings = .ok config ∧
      (∀ setting, config.get setting = ((optionSettings args).get setting).or
        (((variableSettings env).get setting).or (file.get setting))) ∧
      (∀ locale,
        (∃ session, invocation.Builds files config session ∧ session.generator.locale = locale) ↔
          Locale.Completes config.country config.language locale) ∧
      (∀ session, invocation.Builds files config session →
        session.generator.store = ⟨config.datasetRoot.getD "datasets"⟩) ∧
      (∀ key, config.stream key = (config.seed.map .ofSeed).getD (.ofKey key)) ∧
      (∀ otherEnv, SameBelow args env otherEnv →
        ∀ key, run otherEnv files key args = run env files key args) ∧
      (∀ otherEnv otherArgs other otherFiles otherFile,
        Invocation.parse otherEnv otherArgs = some other →
        FileHolds otherFiles other.configPath otherFile →
        other.task = invocation.task → other.count = invocation.count →
        (∀ setting, layers.AgreeOn (layersOf otherEnv otherArgs otherFile) setting) →
        (∀ path, invocation.datasetPath? files = some path → otherFiles path = files path) →
        ∀ key, run otherEnv otherFiles key otherArgs = run env files key args) ∧
      ∀ base first second : Config,
        (base.overriddenBy first).overriddenBy second =
            base.overriddenBy (first.overriddenBy second) ∧
          (∀ setting, (first.overriddenBy second).get setting =
            (second.get setting).or (first.get setting)) ∧
          (base.overriddenBy first).overriddenBy first = base.overriddenBy first := by
  intro layers config
  have loaded := load_layers parsed holds
  refine ⟨loaded, Layers.get_merged _, ?_, ?_, ?_, ?_, ?_, ?_⟩
  · intro locale
    exact Invocation.exists_builds_iff loaded
  · intro session builds
    exact builds.store_eq
  · intro key
    rw [Config.stream]
    cases config.seed <;> rfl
  · intro otherEnv same key
    rw [run, run, parse_congr same]
  · intro otherEnv otherArgs other otherFiles otherFile otherParsed otherHolds task count agree
      dataset key
    have otherLoaded := load_layers otherParsed otherHolds
    rw [← Layers.merged_eq_of_agree agree] at otherLoaded
    rw [run_of_parse parsed, run_of_parse otherParsed]
    exact Invocation.run_congr loaded otherLoaded task count dataset key
  · intro base first second
    exact ⟨base.overriddenBy_overriddenBy first second, first.get_overriddenBy second,
      base.overriddenBy_twice first⟩

/-- A seed may move from the file to the options, and a language from the environment to the options
in other letters. The country of the file is hidden at first and is not there in the end. -/
theorem run_of_moved_settings :
    let env : Environment := fun name => if name = "DATAGEN_LANGUAGE" then some "fr" else none
    let files : Files := fun path =>
      if path = "c" then .ok "seed: 7\ncountry: ua\n".toUTF8 else .error .missing
    let args := ["--country", "CA", "--config", "c", "password"]
    let otherArgs := ["--seed", "7", "--country", "ca", "--language", "FR", "password"]
    let invocation : Invocation :=
      ⟨some "c", ⟨none, some .canada, some .french, none⟩, 1, .password 12 .lowercaseOnly⟩
    let file : Config := ⟨none, some .ukraine, none, some 7⟩
    Invocation.parse env args = some invocation ∧ FileHolds files invocation.configPath file ∧
      ∀ key, run (fun _ => none) (fun _ => .error .missing) key otherArgs =
        run env files key args := by
  intro env files args otherArgs invocation file
  have parsed : Invocation.parse env args = some invocation := by decide +kernel
  let other : Invocation :=
    ⟨none, ⟨none, some .canada, some .french, some 7⟩, 1, .password 12 .lowercaseOnly⟩
  have otherParsed : Invocation.parse (fun _ => none) otherArgs = some other := by decide +kernel
  have holds : FileHolds files invocation.configPath file := by
    have htext : (Config.ofText "seed: 7\ncountry: ua\n").toOption = some file := by decide +kernel
    have hread : files.readText "c" = .ok "seed: 7\ncountry: ua\n" := by
      apply Files.readText_eq_ok_iff.mpr
      exact if_pos rfl
    exact ⟨_, hread, toOption_eq_some_iff.mp htext⟩
  have hoptions : optionSettings args = ⟨none, some .canada, none, none⟩ := by decide +kernel
  have hvariables : variableSettings env = ⟨none, none, some .french, none⟩ := by decide +kernel
  have hotherOptions : optionSettings otherArgs =
      ⟨none, some .canada, some .french, some 7⟩ := by
    decide +kernel
  have agree : ∀ setting, (layersOf env args file).AgreeOn
      (layersOf (fun _ => none) otherArgs .unset) setting := by
    intro setting
    cases setting with
    | datasetRoot =>
      apply Or.inl
      intro layer
      cases layer <;> simp only [layersOf, hoptions, hvariables, hotherOptions] <;> rfl
    | country =>
      refine .inr ⟨.canada, _, _, .of_commandLine ?_, .of_commandLine ?_⟩
      · exact congrArg (·.get .country) hoptions
      · exact congrArg (·.get .country) hotherOptions
    | language =>
      refine .inr ⟨.french, _, _, .of_environment ?_ ?_, .of_commandLine ?_⟩
      · exact congrArg (·.get .language) hvariables
      · exact congrArg (·.get .language) hoptions
      · exact congrArg (·.get .language) hotherOptions
    | seed =>
      refine .inr ⟨(7 : UInt64), _, _, .of_file rfl ?_ ?_, .of_commandLine ?_⟩
      · exact congrArg (·.get .seed) hvariables
      · exact congrArg (·.get .seed) hoptions
      · exact congrArg (·.get .seed) hotherOptions
  have law := run_follows_precedence parsed holds
  refine ⟨parsed, holds, ?_⟩
  apply law.2.2.2.2.2.2.1 (fun _ => none) otherArgs other (fun _ => .error .missing) .unset
    otherParsed rfl rfl rfl agree
  intro path hpath
  rw [Invocation.datasetPath?_eq_none rfl] at hpath
  cases hpath

end CommandLine

end FakeData
