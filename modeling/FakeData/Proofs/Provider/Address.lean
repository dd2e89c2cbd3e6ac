import FakeData.Generator
import FakeData.Proofs.Resolution
import FakeData.Proofs.Synthesis.Content
import FakeData.Proofs.Text

/-!
# Addresses

The two kinds of email addresses: a full name with its spaces replaced, at a domain, and random
characters at a domain. A random domain has one form, in which only the first character is an at
sign.
-/
namespace FakeData

open Provider
open Synthesis (lowercase uppercase digits)

variable {σ : Type} [IndexSource σ] {files : Files} {store : DatasetStore} {locale : Locale}
  {source : σ}

/-! ## Random parts -/

theorem isLower_of_mem_lowercase {c : Char} (h : c ∈ lowercase) : c.isLower := by
  have hall : lowercase.all Char.isLower = true := by decide
  exact List.all_eq_true.mp hall c h

theorem isUpper_of_mem_uppercase {c : Char} (h : c ∈ uppercase) : c.isUpper := by
  have hall : uppercase.all Char.isUpper = true := by decide
  exact List.all_eq_true.mp hall c h

theorem isDigit_of_mem_digits {c : Char} (h : c ∈ digits) : c.isDigit := by
  have hall : digits.all Char.isDigit = true := by decide
  exact List.all_eq_true.mp hall c h

/-- Eight characters, letters and digits of the classes in use only, and with one of each further
class in use. -/
structure IsRandomLocalPart (useUppercase useDigits : Bool) (text : String) : Prop where
  length_eq : text.length = 8
  plain : ∀ c ∈ text.toList,
    c.isLower ∨ (useUppercase ∧ c.isUpper) ∨ (useDigits ∧ c.isDigit)
  uppercase : useUppercase → ∃ c ∈ text.toList, c.isUpper
  digits : useDigits → ∃ c ∈ text.toList, c.isDigit

/-- An at sign, four lowercase letters and a fixed ending. -/
def IsRandomDomain (text : String) : Prop :=
  ∃ label : String, label.length = 4 ∧ (∀ c ∈ label.toList, c.isLower) ∧
    text = "@" ++ label ++ ".com"

theorem isRandomLocalPart (useUppercase useDigits : Bool) (source : σ) :
    IsRandomLocalPart useUppercase useDigits
      ((localPart useUppercase useDigits).run source).1 := by
  have hends := Draw.ends_run (localPart useUppercase useDigits) source
  have hlong : 3 ≤ localPartLength := by decide
  constructor
  case length_eq =>
    rw [← String.length_toList]
    exact Synthesis.length_synthesize hends
  case plain =>
    intro c hc
    rcases Synthesis.mem_alphabet.mp (Synthesis.mem_alphabet_of_mem_synthesize hends hc) with
      h | ⟨used, h⟩ | ⟨used, h⟩ | ⟨used, -⟩
    · exact .inl (isLower_of_mem_lowercase h)
    · exact .inr (.inl ⟨used, isUpper_of_mem_uppercase h⟩)
    · exact .inr (.inr ⟨used, isDigit_of_mem_digits h⟩)
    · cases used
  case uppercase =>
    intro used
    obtain ⟨c, hc, h⟩ := Synthesis.exists_mem_synthesize hends hlong .uppercase (by decide) used
    exact ⟨c, hc, isUpper_of_mem_uppercase h⟩
  case digits =>
    intro used
    obtain ⟨c, hc, h⟩ := Synthesis.exists_mem_synthesize hends hlong .digits (by decide) used
    exact ⟨c, hc, isDigit_of_mem_digits h⟩

theorem isRandomDomain (source : σ) : IsRandomDomain (domainName.run source).1 := by
  have hends := Draw.ends_run (synthesize .lowercaseOnly domainLength) source
  rw [domainName, Draw.run_andThen, Draw.run_done]
  refine ⟨_, ?_, ?_, rfl⟩
  · rw [← String.length_toList]
    exact Synthesis.length_synthesize hends
  · intro c hc
    rcases Synthesis.mem_alphabet.mp (Synthesis.mem_alphabet_of_mem_synthesize hends hc) with
      h | ⟨used, -⟩ | ⟨used, -⟩ | ⟨used, -⟩
    · exact isLower_of_mem_lowercase h
    · cases used
    · cases used
    · cases used

theorem IsRandomLocalPart.atSign_notMem {useUppercase useDigits : Bool} {text : String}
    (h : IsRandomLocalPart useUppercase useDigits text) : '@' ∉ text.toList := by
  intro hat
  rcases h.plain _ hat with hc | ⟨-, hc⟩ | ⟨-, hc⟩
  · exact absurd hc (by decide)
  · exact absurd hc (by decide)
  · exact absurd hc (by decide)

theorem IsRandomDomain.exists_toList {text : String} (h : IsRandomDomain text) :
    ∃ rest, text.toList = '@' :: rest ∧ '@' ∉ rest := by
  obtain ⟨label, -, hlabel, rfl⟩ := h
  refine ⟨label.toList ++ ".com".toList, by simp, ?_⟩
  rw [List.mem_append, not_or]
  refine ⟨?_, by decide⟩
  intro hat
  exact absurd (hlabel _ hat) (by decide)

/-- The at sign of the domain is the only one, and stands right after the local part. -/
theorem atSign_iff {useUppercase useDigits : Bool} {localText domainText : String}
    (hlocal : IsRandomLocalPart useUppercase useDigits localText)
    (hdomain : IsRandomDomain domainText) (i : Nat) :
    (localText ++ domainText).toList[i]? = some '@' ↔ i = 8 := by
  obtain ⟨rest, hrest, hnot⟩ := hdomain.exists_toList
  have hlength : localText.toList.length = 8 := by
    rw [String.length_toList]
    exact hlocal.length_eq
  rw [String.toList_append, hrest]
  rcases Nat.lt_trichotomy i 8 with hi | rfl | hi
  · rw [List.getElem?_append_left (by omega)]
    constructor
    · intro hget
      exact absurd (List.mem_of_getElem? hget) hlocal.atSign_notMem
    · omega
  · rw [List.getElem?_append_right (by omega), hlength]
    simp
  · obtain ⟨j, hj⟩ := Nat.exists_eq_add_of_lt hi
    have hindex : i - localText.toList.length = j + 1 := by omega
    rw [List.getElem?_append_right (by omega), hindex, List.getElem?_cons_succ]
    constructor
    · intro hget
      exact absurd (List.mem_of_getElem? hget) hnot
    · omega

/-! ## Names -/

/-- The words between the spaces of a name, of which some may be empty, stand in the local part
with the separator between them. -/
def IsRejoined (name separator localText : String) : Prop :=
  ∃ words : List String, words ≠ [] ∧ (∀ word ∈ words, ' ' ∉ word.toList) ∧
    " ".intercalate words = name ∧ separator.intercalate words = localText

theorem isRejoined_replaceChar (name separator : String) :
    IsRejoined name separator (Text.replaceChar ' ' separator name) := by
  refine ⟨Text.split ' ' name, ?_, fun word => Text.notMem_of_mem_split, ?_, rfl⟩
  · rw [← List.length_pos_iff, Text.length_split]
    omega
  · exact Text.intercalate_split ' ' name

/-- A separator without spaces leaves none. -/
theorem space_notMem_replaceChar {separator : String} (h : ' ' ∉ separator.toList)
    (name : String) : ' ' ∉ (Text.replaceChar ' ' separator name).toList := by
  rw [Text.toList_replaceChar, List.mem_flatMap]
  rintro ⟨c, -, hc⟩
  split at hc
  · exact h hc
  · rename_i other
    exact other (List.mem_singleton.mp hc).symm

/-! ## Runs -/

/-- The domain is drawn from what the local part leaves. -/
theorem run_atDomain_ok {localPart : Draw (Except Failure String)} {localText : String} {after : σ}
    (h : localPart.run source = (.ok localText, after)) (domain : Draw String) :
    (atDomain localPart domain).run source =
      (.ok (localText ++ (domain.run after).1), (domain.run after).2) := by
  rw [atDomain, Draw.run_andThen, h]
  exact Draw.run_andThen _ _ _

theorem run_atDomain_error {localPart : Draw (Except Failure String)} {failure : Failure}
    {after : σ} (h : localPart.run source = (.error failure, after)) (domain : Draw String) :
    (atDomain localPart domain).run source = (.error failure, after) := by
  rw [atDomain, Draw.run_andThen, h]
  rfl

theorem run_always (draw : Draw String) (source : σ) :
    (always draw).run source = (.ok (draw.run source).1, (draw.run source).2) :=
  Draw.run_andThen _ _ _

theorem run_fullNameLocalPart (separator : String) :
    (fullNameLocalPart files store locale separator).run source =
      (((fullName files store locale).run source).1.map (Text.replaceChar ' ' separator),
        ((fullName files store locale).run source).2) :=
  Draw.run_andThen _ _ _

/-- A full name that cannot be made leaves the source as it was. -/
theorem run_fullName_error {failure : Failure}
    (h : ((fullName files store locale).run source).1 = .error failure) :
    ((fullName files store locale).run source).2 = source := by
  rw [fullName, resolve_of_firstFailure (firstFailure_of_error h), Draw.run_done]

/-- An address from a name is made whenever the name is, from the same draws, and fails as the name
does, without a draw. Its local part is the name with the separator for each space, and it goes
before the given domain, or before one that is drawn next. An address from random characters has
eight of them before its domain, each of a class in use, with one of each further class. A random
domain is an at sign, four lowercase letters and a fixed ending, so an address that has one has its
only at sign in the ninth place. -/
theorem addresses_from_names_and_draws (generator : Generator) (files : Files) (source : σ) :
    (∀ separator domain,
      let name := (generator.make files .fullName).run source
      let address := (generator.make files (.emailWithPersonName separator domain)).run source
      ((∃ value, address.1 = .ok value) ↔ ∃ value, name.1 = .ok value) ∧
      (∀ failure, name.1 = .error failure → address = (.error failure, source)) ∧
      ∀ value, name.1 = .ok value → ∃ localText,
        IsRejoined value (separator.getD "_") localText ∧
        (' ' ∉ (separator.getD "_").toList → ' ' ∉ localText.toList) ∧
        (∀ given, domain = some given → address = (.ok (localText ++ given), name.2)) ∧
        (domain = none →
          let drawn := (generator.make files .domainName).run name.2
          ∃ domainText, drawn.1 = .ok domainText ∧ IsRandomDomain domainText ∧
            address = (.ok (localText ++ domainText), drawn.2))) ∧
    (∃ domainText, ((generator.make files .domainName).run source).1 = .ok domainText ∧
      IsRandomDomain domainText) ∧
    (∀ useUppercase useDigits domain, ∃ localText,
      ((generator.make files (.emailWithDomain useUppercase useDigits domain)).run source).1 =
        .ok (localText ++ domain) ∧
      IsRandomLocalPart useUppercase useDigits localText) ∧
    (∀ useUppercase useDigits, ∃ localText domainText,
      ((generator.make files (.email useUppercase useDigits)).run source).1 =
        .ok (localText ++ domainText) ∧
      IsRandomLocalPart useUppercase useDigits localText ∧ IsRandomDomain domainText ∧
      ∀ i, (localText ++ domainText).toList[i]? = some '@' ↔ i = 8) := by
  refine ⟨?_, ?_, ?_, ?_⟩
  · intro separator domain name address
    have hlocal : (fullNameLocalPart files generator.store generator.locale
        (separator.getD standardSeparator)).run source =
          (name.1.map (Text.replaceChar ' ' (separator.getD standardSeparator)), name.2) :=
      run_fullNameLocalPart (separator.getD standardSeparator)
    cases hresult : name.1 with
    | error failure =>
      have hsource : name.2 = source := run_fullName_error hresult
      rw [hresult, hsource] at hlocal
      have haddress : address = (.error failure, source) :=
        run_atDomain_error hlocal (domainOr domain)
      simp [haddress]
    | ok value =>
      rw [hresult] at hlocal
      have haddress : address =
          (.ok (Text.replaceChar ' ' (separator.getD standardSeparator) value ++
            ((domainOr domain).run name.2).1), ((domainOr domain).run name.2).2) :=
        run_atDomain_ok hlocal (domainOr domain)
      refine ⟨by simp [haddress], by simp, ?_⟩
      rintro _ ⟨⟩
      refine ⟨_, isRejoined_replaceChar value _, (space_notMem_replaceChar · value), ?_, ?_⟩
      · rintro given rfl
        exact haddress
      · rintro rfl drawn
        have hdrawn : drawn = _ := run_always domainName name.2
        rw [hdrawn]
        exact ⟨_, rfl, isRandomDomain name.2, haddress⟩
  · have hdrawn := run_always domainName source
    exact ⟨_, congrArg Prod.fst hdrawn, isRandomDomain source⟩
  · intro useUppercase useDigits domain
    have hlocal := run_always (localPart useUppercase useDigits) source
    refine ⟨_, ?_, isRandomLocalPart useUppercase useDigits source⟩
    exact congrArg Prod.fst (run_atDomain_ok hlocal (.done domain))
  · intro useUppercase useDigits
    have hlocal := run_always (localPart useUppercase useDigits) source
    have hparts := isRandomLocalPart useUppercase useDigits source
    have hdomain := isRandomDomain ((localPart useUppercase useDigits).run source).2
    refine ⟨_, _, ?_, hparts, hdomain, atSign_iff hparts hdomain⟩
    exact congrArg Prod.fst (run_atDomain_ok hlocal domainName)

end FakeData
