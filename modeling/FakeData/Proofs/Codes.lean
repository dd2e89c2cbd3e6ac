import FakeData.Proofs.Except
import FakeData.Proofs.Location
import FakeData.Proofs.Text.Lowercase

/-!
# Codes of countries and languages

A text is read as a code exactly if, without the blanks around it, it spells the code character by
character in either letter case. The sign for a kelvin can stand in for a k, which only one language
has in its code.
-/
namespace FakeData

open Text (IsEitherCase IsSpelling Lowercased)

section

variable {κ : Type} {known : List κ} {code : κ → String} (complete : ∀ item, item ∈ known)
  (injective : ∀ item other, code item = code other → item = other)

include complete injective

/-- The first item with a code is the one with that code. -/
theorem find?_code_eq_some_iff {text : String} {item : κ} :
    known.find? (code · == text) = some item ↔ code item = text := by
  constructor
  · intro h
    simpa using List.find?_some h
  · rintro rfl
    cases hfound : known.find? (code · == code item) with
    | none => exact absurd (List.find?_eq_none.mp hfound item (complete item)) (by simp)
    | some other =>
      have same : code other = code item := by simpa using List.find?_some hfound
      rw [injective other item same]

/-- The item whose code is a lower case of a text is the one whose code the text spells. -/
theorem find?_lowered_eq_some_iff (lower : ∀ item, ∀ letter ∈ (code item).toList, letter.isLower)
    {cs lowered : List Char} (h : Lowercased cs lowered) {item : κ} :
    known.find? (code · == .ofList lowered) = some item ↔
      List.Forall₂ IsSpelling cs (code item).toList := by
  rw [find?_code_eq_some_iff complete injective, ← h.eq_iff (lower item), eq_comm,
    ← String.toList_inj, String.toList_ofList]

end

section

variable {text : String} {lowered : List Char}

namespace Country

theorem ofCode?_lowered_iff {cs : List Char} (h : Lowercased cs lowered) {country : Country} :
    ofCode? (.ofList lowered) = some country ↔
      List.Forall₂ IsEitherCase cs country.code.toList := by
  have complete (country : Country) : country ∈ all := by cases country <;> decide
  have lower (country : Country) : ∀ letter ∈ country.code.toList, letter.isLower :=
    List.all_eq_true.mp (by cases country <;> decide)
  have without : 'k' ∉ country.code.toList := by cases country <;> decide
  have injective (country other : Country) (same : country.code = other.code) : country = other :=
    code_injective (congrArg String.toList same)
  rw [ofCode?, find?_lowered_eq_some_iff complete injective lower h,
    Text.forall₂_isSpelling_iff without]

theorem parse_eq_ok_iff {country : Country} :
    parse text = .ok country ↔
      List.Forall₂ IsEitherCase (Text.trim text).toList country.code.toList := by
  rw [← ofCode?_lowered_iff (Text.lowercased_flatMap _), parse, ← Text.lowercase]
  split <;> simp [*]

theorem parse_eq_error_iff {error : LocaleError} :
    parse text = .error error ↔
      (∀ country, parse text ≠ .ok country) ∧ error = .unknownCountry text := by
  rw [parse]
  split <;> simp [eq_comm]

end Country

namespace Language

theorem ofCode?_lowered_iff {cs : List Char} (h : Lowercased cs lowered) {language : Language} :
    ofCode? (.ofList lowered) = some language ↔
      List.Forall₂ IsSpelling cs language.code.toList := by
  have complete (language : Language) : language ∈ all := by cases language <;> decide
  have lower (language : Language) : ∀ letter ∈ language.code.toList, letter.isLower :=
    List.all_eq_true.mp (by cases language <;> decide)
  exact find?_lowered_eq_some_iff complete (fun _ _ => code_injective) lower h

theorem parse_eq_ok_iff {language : Language} :
    parse text = .ok language ↔
      List.Forall₂ IsSpelling (Text.trim text).toList language.code.toList := by
  rw [← ofCode?_lowered_iff (Text.lowercased_flatMap _), parse, ← Text.lowercase]
  split <;> simp [*]

theorem parse_eq_error_iff {error : LocaleError} :
    parse text = .error error ↔
      (∀ language, parse text ≠ .ok language) ∧ error = .unknownLanguage text := by
  rw [parse]
  split <;> simp [eq_comm]

end Language

end

/-- A text is a code of a country exactly if it spells the code character by character, in either
case and with blanks around it, and a code of a language likewise, save that the sign for a kelvin
also spells a k. No text is two codes. Any other text is refused with an error that quotes it as it
is. The answer would be the same if a capital sigma became another small letter. -/
theorem parse_spelled_codes (text : String) :
    let trimmed := (Text.trim text).toList
    (∀ country, Country.parse text = .ok country ↔
        List.Forall₂ IsEitherCase trimmed country.code.toList) ∧
      (∀ language, Language.parse text = .ok language ↔
        List.Forall₂ IsSpelling trimmed language.code.toList) ∧
      (∀ country other, List.Forall₂ IsEitherCase trimmed (Country.code country).toList →
        List.Forall₂ IsEitherCase trimmed (Country.code other).toList → country = other) ∧
      (∀ language other, List.Forall₂ IsSpelling trimmed (Language.code language).toList →
        List.Forall₂ IsSpelling trimmed (Language.code other).toList → language = other) ∧
      (∀ error, Country.parse text = .error error ↔
        (∀ country, ¬List.Forall₂ IsEitherCase trimmed (Country.code country).toList) ∧
          error = .unknownCountry text) ∧
      (∀ error, Language.parse text = .error error ↔
        (∀ language, ¬List.Forall₂ IsSpelling trimmed (Language.code language).toList) ∧
          error = .unknownLanguage text) ∧
      ∀ lowered, Lowercased trimmed lowered →
        Country.ofCode? (.ofList lowered) = (Country.parse text).toOption ∧
          Language.ofCode? (.ofList lowered) = (Language.parse text).toOption := by
  intro trimmed
  refine ⟨fun _ => Country.parse_eq_ok_iff, fun _ => Language.parse_eq_ok_iff, ?_, ?_, ?_, ?_, ?_⟩
  · intro country other h hother
    rw [← Country.parse_eq_ok_iff] at h hother
    exact Except.ok.inj (h.symm.trans hother)
  · intro language other h hother
    rw [← Language.parse_eq_ok_iff] at h hother
    exact Except.ok.inj (h.symm.trans hother)
  · intro error
    simp only [Country.parse_eq_error_iff, ne_eq, Country.parse_eq_ok_iff, trimmed]
  · intro error
    simp only [Language.parse_eq_error_iff, ne_eq, Language.parse_eq_ok_iff, trimmed]
  · intro lowered h
    constructor
    · apply Option.ext
      intro country
      rw [Country.ofCode?_lowered_iff h, toOption_eq_some_iff, Country.parse_eq_ok_iff]
    · apply Option.ext
      intro language
      rw [Language.ofCode?_lowered_iff h, toOption_eq_some_iff, Language.parse_eq_ok_iff]

example : Language.parse " U\u212Ar\u2003" = .ok .ukrainian := by rfl

end FakeData
