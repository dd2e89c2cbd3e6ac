import FakeData.Config

/-!
# Layers of settings

Each setting may be given in several layers, and counts where it is given in the highest one. So a
configuration is merged setting by setting, and what a layer says of a setting matters only if no
layer above it says something.
-/
namespace FakeData

inductive Setting where
  | datasetRoot
  | country
  | language
  | seed
  deriving DecidableEq, Repr

def Setting.Value : Setting → Type
  | .datasetRoot => String
  | .country => Country
  | .language => Language
  | .seed => UInt64

namespace Config

variable {config other : Config} {setting : Setting}

def get (config : Config) : (setting : Setting) → Option setting.Value
  | .datasetRoot => config.datasetRoot
  | .country => config.country
  | .language => config.language
  | .seed => config.seed

/-- A configuration is its settings. -/
theorem eq_of_get (h : ∀ setting, config.get setting = other.get setting) : config = other := by
  have hroot := h .datasetRoot
  have hcountry := h .country
  have hlanguage := h .language
  have hseed := h .seed
  cases config
  cases other
  simp_all [get]

@[simp] theorem get_overriddenBy (config settings : Config) (setting : Setting) :
    (config.overriddenBy settings).get setting =
      (settings.get setting).or (config.get setting) := by
  cases setting <;> exact Option.orElse_eq_or

/-- Settings that are given one after the other are given at once, the later ones before the
earlier ones. -/
theorem overriddenBy_overriddenBy (config first second : Config) :
    (config.overriddenBy first).overriddenBy second =
      config.overriddenBy (first.overriddenBy second) := by
  apply eq_of_get
  intro setting
  simp only [get_overriddenBy, Option.or_assoc]

theorem overriddenBy_self (settings : Config) : settings.overriddenBy settings = settings := by
  apply eq_of_get
  intro setting
  rw [get_overriddenBy, Option.or_self]

theorem overriddenBy_twice (config settings : Config) :
    (config.overriddenBy settings).overriddenBy settings = config.overriddenBy settings := by
  rw [overriddenBy_overriddenBy, overriddenBy_self]

end Config

inductive Layer where
  | file
  | environment
  | commandLine
  deriving DecidableEq, Repr

/-- The command line stands above the environment, and this above the file. -/
def Layer.rank : Layer → Nat
  | .file => 0
  | .environment => 1
  | .commandLine => 2

abbrev Layers := Layer → Config

namespace Layers

variable {layers others : Layers} {setting : Setting}

/-- Each layer overrides those below it. -/
def merged (layers : Layers) : Config :=
  ((layers .file).overriddenBy (layers .environment)).overriddenBy (layers .commandLine)

/-- A setting is that of the command line, or else of the environment, or else of the file. -/
theorem get_merged (layers : Layers) (setting : Setting) :
    layers.merged.get setting = ((layers .commandLine).get setting).or
      (((layers .environment).get setting).or ((layers .file).get setting)) := by
  simp only [merged, Config.get_overriddenBy]

/-- The layer gives the setting a value, and none above it does. -/
structure Settles (layers : Layers) (setting : Setting) (layer : Layer)
    (value : setting.Value) : Prop where
  given : (layers layer).get setting = some value
  above : ∀ other, layer.rank < other.rank → (layers other).get setting = none

section Settles

variable {value : setting.Value}

theorem Settles.of_commandLine (given : (layers .commandLine).get setting = some value) :
    layers.Settles setting .commandLine value := by
  refine ⟨given, ?_⟩
  intro other above
  cases other <;> simp [Layer.rank] at above

theorem Settles.of_environment (given : (layers .environment).get setting = some value)
    (commandLine : (layers .commandLine).get setting = none) :
    layers.Settles setting .environment value := by
  refine ⟨given, ?_⟩
  intro other above
  cases other with
  | commandLine => exact commandLine
  | environment | file => simp [Layer.rank] at above

theorem Settles.of_file (given : (layers .file).get setting = some value)
    (environment : (layers .environment).get setting = none)
    (commandLine : (layers .commandLine).get setting = none) :
    layers.Settles setting .file value := by
  refine ⟨given, ?_⟩
  intro other above
  cases other with
  | commandLine => exact commandLine
  | environment => exact environment
  | file => simp [Layer.rank] at above

theorem Settles.get_merged {layer : Layer} (h : layers.Settles setting layer value) :
    layers.merged.get setting = some value := by
  rw [Layers.get_merged]
  cases layer with
  | commandLine => rw [h.given, Option.some_or]
  | environment => rw [h.above .commandLine (by decide), h.given, Option.none_or, Option.some_or]
  | file =>
    rw [h.above .commandLine (by decide), h.above .environment (by decide), h.given, Option.none_or,
      Option.none_or]

end Settles

/-- The layers agree on the setting, or both settle it with one value, be it in the same layer with
something else below or in another one. -/
def AgreeOn (layers others : Layers) (setting : Setting) : Prop :=
  (∀ layer, (layers layer).get setting = (others layer).get setting) ∨
    ∃ value layer other, layers.Settles setting layer value ∧ others.Settles setting other value

/-- Values that move to other layers or are hidden do not change what is merged. -/
theorem merged_eq_of_agree (h : ∀ setting, layers.AgreeOn others setting) :
    layers.merged = others.merged := by
  apply Config.eq_of_get
  intro setting
  rcases h setting with same | ⟨value, layer, other, settles, otherSettles⟩
  · simp only [Layers.get_merged, same]
  · rw [settles.get_merged, otherSettles.get_merged]

end Layers

/-! ## The locale of the settings -/

namespace Locale

variable {setCountry : Option Country} {setLanguage : Option Language} {locale : Locale}

/-- The locale has the parts that are set. A part that is not set is the native partner of the
other one, and if neither is set the locale is the standard one. -/
structure Completes (setCountry : Option Country) (setLanguage : Option Language)
    (locale : Locale) : Prop where
  country : ∀ country ∈ setCountry, locale.country = country
  language : ∀ language ∈ setLanguage, locale.language = language
  nativeLanguage : setCountry ≠ none → setLanguage = none →
    locale.country.nativeLanguage? = some locale.language
  nativeCountry : setCountry = none → setLanguage ≠ none →
    locale.language.nativeCountry? = some locale.country
  standard : setCountry = none → setLanguage = none → locale = .standard

theorem inferFromCountry_eq_ok_iff {country : Country} :
    inferFromCountry country = .ok locale ↔
      locale.country = country ∧ locale.country.nativeLanguage? = some locale.language := by
  obtain ⟨localCountry, localLanguage⟩ := locale
  rw [inferFromCountry]
  constructor
  · intro h
    split at h
    · cases h
      exact ⟨rfl, by assumption⟩
    · cases h
  · rintro ⟨rfl, h⟩
    rw [h]

theorem inferFromLanguage_eq_ok_iff {language : Language} :
    inferFromLanguage language = .ok locale ↔
      locale.language = language ∧ locale.language.nativeCountry? = some locale.country := by
  obtain ⟨localCountry, localLanguage⟩ := locale
  rw [inferFromLanguage]
  constructor
  · intro h
    split at h
    · cases h
      exact ⟨rfl, by assumption⟩
    · cases h
  · rintro ⟨rfl, h⟩
    rw [h]

/-- A locale is found exactly when the parts that are set can be completed. -/
theorem resolve_eq_ok_iff : resolve setCountry setLanguage = .ok locale ↔
    Completes setCountry setLanguage locale := by
  constructor
  · intro h
    cases setCountry with
    | none =>
      cases setLanguage with
      | none =>
        cases h
        constructor <;> simp
      | some language =>
        obtain ⟨rfl, native⟩ := inferFromLanguage_eq_ok_iff.mp h
        constructor <;> simp [native]
    | some country =>
      cases setLanguage with
      | none =>
        obtain ⟨rfl, native⟩ := inferFromCountry_eq_ok_iff.mp h
        constructor <;> simp [native]
      | some language =>
        cases h
        constructor <;> simp
  · intro completes
    cases setCountry with
    | none =>
      cases setLanguage with
      | none => rw [completes.standard rfl rfl, resolve]
      | some language =>
        apply inferFromLanguage_eq_ok_iff.mpr
        exact ⟨completes.language _ rfl, completes.nativeCountry rfl (by simp)⟩
    | some country =>
      cases setLanguage with
      | none =>
        apply inferFromCountry_eq_ok_iff.mpr
        exact ⟨completes.country _ rfl, completes.nativeLanguage (by simp) rfl⟩
      | some language => rw [← completes.country _ rfl, ← completes.language _ rfl, resolve]

end Locale

end FakeData
