import FakeData.Config
import FakeData.Proofs.Locale.Yaml

/-!
# Configurations that are read back

A configuration is written with a line for each setting, also for those that are not set. Every
setting is read back as it was, whatever the path of the datasets is.
-/
namespace FakeData.Config

open Yaml Yaml.Node

/-! ## Settings -/

theorem writesBack_path : WritesBack writeText readPath :=
  WritesBack.ofText fun _ _ _ => rfl

/-! ## Lines -/

/-- Each field of the record has a name that can be a key. -/
theorem isName_of_mem_fields {name : String} (h : name ∈ schema.fields) :
    Lexer.IsName name.toList := by
  simp only [schema, List.mem_cons, List.not_mem_nil, or_false] at h
  rcases h with rfl | rfl | rfl | rfl
  · exact ⟨by decide, by decide, fun t => rfl, by decide⟩
  · exact ⟨by decide, by decide, fun t => rfl, by decide⟩
  · exact ⟨by decide, by decide, fun t => rfl, by decide⟩
  · exact ⟨by decide, by decide, fun t => rfl, by decide⟩

/-- What is written is read back as the same configuration. -/
theorem ofText_toText (config : Config) : ofText config.toText = .ok config := by
  obtain ⟨datasetRoot, country, language, seed⟩ := config
  obtain ⟨rootField, hroot⟩ := (writesBack_path.readsAs_optional datasetRoot).exists_holds
    (@isName_of_mem_fields "dataset_root" (by decide))
  obtain ⟨countryField, hcountry⟩ := (writesBack_country.readsAs_optional country).exists_holds
    (@isName_of_mem_fields "country" (by decide))
  obtain ⟨languageField, hlanguage⟩ := (writesBack_language.readsAs_optional language).exists_holds
    (@isName_of_mem_fields "language" (by decide))
  obtain ⟨seedField, hseed⟩ := (writesBack_unsigned.readsAs_optional seed).exists_holds
    (@isName_of_mem_fields "seed" (by decide))
  have hlines : toText ⟨datasetRoot, country, language, seed⟩ =
      .ofList ([rootField, countryField, languageField, seedField].flatMap Field.line) := by
    simp [toText, hroot.line, hcountry.line, hlanguage.line, hseed.line]
  have hreads : ∀ field ∈ [rootField, countryField, languageField, seedField], field.Reads := by
    simp [hroot.reads, hcountry.reads, hlanguage.reads, hseed.reads]
  have hsets : schema.Sets [rootField, countryField, languageField, seedField] [] unset
      ⟨datasetRoot, country, language, seed⟩ :=
    .field hroot rfl rfl (fun _ _ => rfl) <|
    .field hcountry rfl rfl (fun _ _ => rfl) <|
    .field hlanguage rfl rfl (fun _ _ => rfl) <|
    .field hseed rfl rfl (fun _ _ => rfl) <|
    .nil _ _
  rw [ofText, hlines, Schema.read_lines hreads hsets (List.forall_mem_nil _)]

end FakeData.Config
