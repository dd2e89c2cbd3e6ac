import FakeData.Locale.Yaml
import FakeData.Proofs.Yaml.Codec

/-!
# Locales that are read from YAML texts

A locale is written with a line for each of its codes, which are read back as they were.
-/
namespace FakeData

open Yaml Yaml.Node

theorem writesBack_country : WritesBack (fun country : Country => writeText country.code)
    (readCode Country.ofCode? (Country.all.map Country.code)) :=
  writesBack_code (by intro country; cases country <;> rfl) _

theorem writesBack_language : WritesBack (fun language : Language => writeText language.code)
    (readCode Language.ofCode? (Language.all.map Language.code)) :=
  writesBack_code (by intro language; cases language <;> rfl) _

namespace LocaleRecord

/-- What is written is read back as the same locale. -/
theorem ofYaml_toYaml (locale : Locale) : ofYaml (toYaml locale) = .ok locale := by
  obtain ⟨country, language⟩ := locale
  have countryName : Lexer.IsName "country".toList :=
    ⟨by decide, by decide, fun t => rfl, by decide⟩
  have languageName : Lexer.IsName "language".toList :=
    ⟨by decide, by decide, fun t => rfl, by decide⟩
  obtain ⟨countryField, hcountry⟩ := (writesBack_country.readsAs country).exists_holds countryName
  obtain ⟨languageField, hlanguage⟩ :=
    (writesBack_language.readsAs language).exists_holds languageName
  have hlines : toYaml ⟨country, language⟩ =
      .ofList ([countryField, languageField].flatMap Field.line) := by
    simp [toYaml, hcountry.line, hlanguage.line]
  have hreads : ∀ field ∈ [countryField, languageField], field.Reads := by
    simp [hcountry.reads, hlanguage.reads]
  have hsets : schema.Sets [countryField, languageField] [] .none ⟨country, language⟩ :=
    .field hcountry rfl rfl (fun _ _ => rfl) <|
    .field hlanguage rfl rfl (fun _ _ => rfl) <|
    .nil _ _
  have hrequired : ∀ name ∈ schema.fields, name ∈ Schema.found [countryField, languageField] := by
    simp [schema, Schema.found, hcountry.named, hlanguage.named]
  rw [ofYaml, hlines, Schema.read_lines hreads hsets hrequired]

end LocaleRecord

end FakeData
