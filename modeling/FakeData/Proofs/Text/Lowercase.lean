import FakeData.Text.Lowercase
import Mathlib.Data.List.Forall2

/-!
# Words in either letter case

The characters whose lower case is a letter of ASCII are that letter in either case and, for the k
only, the sign for a kelvin. So a text has a word of such letters as its lower case exactly when it
spells the word character by character, and what becomes of a sigma makes no difference.
-/
namespace FakeData.Text

/-- The sign for a kelvin, whose lower case is the letter k. -/
def kelvinSign : Char := '\u212A'

/-- The capital I with a dot, the one character whose lower case has two characters. -/
def dottedI : Char := '\u0130'

def dotAbove : Char := '\u0307'

/-- The character is the letter in lower or in upper case. -/
def IsEitherCase (c letter : Char) : Prop := c = letter ∨ c = letter.toUpper

/-- The character has the letter as its lower case. -/
def IsSpelling (c letter : Char) : Prop := IsEitherCase c letter ∨ c = kelvinSign ∧ letter = 'k'

/-- The second text is a lower case of the first. A capital sigma becomes either small letter, as
the letters around it decide. -/
inductive Lowercased : List Char → List Char → Prop where
  | nil : Lowercased [] []
  | char (c : Char) {cs ds : List Char} (rest : Lowercased cs ds) :
      Lowercased (c :: cs) (lowercaseChar c ++ ds)
  | finalSigma {cs ds : List Char} (rest : Lowercased cs ds) : Lowercased ('Σ' :: cs) ('ς' :: ds)

variable {c letter : Char} {cs ds word : List Char}

theorem lowercased_flatMap (cs : List Char) : Lowercased cs (cs.flatMap lowercaseChar) := by
  induction cs with
  | nil => exact .nil
  | cons c cs ih =>
    rw [List.flatMap_cons]
    exact .char c ih

/-! ## One character -/

theorem isLower_iff : c.isLower ↔ 97 ≤ c.toNat ∧ c.toNat ≤ 122 := by
  change (decide ('a'.val ≤ c.val) && decide (c.val ≤ 'z'.val)) = true ↔ _
  rw [Bool.and_eq_true, decide_eq_true_eq, decide_eq_true_eq]
  rfl

theorem eq_of_toNat_eq {other : Char} (h : c.toNat = other.toNat) : c = other := by
  rw [← Char.ofNat_toNat c, h, Char.ofNat_toNat]

/-- What holds of the letters one by one holds of every letter. -/
theorem forall_isLower {p : Char → Prop} (h : ∀ k < 26, p (Char.ofNat (97 + k)))
    (lower : letter.isLower) : p letter := by
  obtain ⟨least, most⟩ := isLower_iff.mp lower
  have hletter : Char.ofNat (97 + (letter.toNat - 97)) = letter := by
    rw [Nat.add_sub_cancel' least, Char.ofNat_toNat]
  rw [← hletter]
  exact h _ (by omega)

theorem toLower_of_not_ascii (beyond : 0x80 ≤ c.toNat) : c.toLower = c := by
  have not_upper : ¬(c.val ≥ 'A'.val ∧ c.val ≤ 'Z'.val) := by
    rintro ⟨-, below⟩
    have bound : c.toNat ≤ 90 := below
    omega
  exact dif_neg not_upper

theorem not_isEitherCase_of_not_ascii (lower : letter.isLower) (beyond : 0x80 ≤ c.toNat) :
    ¬IsEitherCase c letter := by
  have ascii : letter.toNat < 0x80 ∧ letter.toUpper.toNat < 0x80 :=
    @forall_isLower letter (fun l => l.toNat < 0x80 ∧ l.toUpper.toNat < 0x80) (by decide) lower
  rintro (rfl | rfl)
  · exact absurd ascii.1 (by omega)
  · exact absurd ascii.2 (by omega)

theorem toLower_eq_iff (lower : letter.isLower) : c.toLower = letter ↔ IsEitherCase c letter := by
  by_cases ascii : c.toNat < 0x80
  · have table : ∀ k < 26, ∀ n < 0x80, (Char.ofNat n).toLower = Char.ofNat (97 + k) ↔
        Char.ofNat n = Char.ofNat (97 + k) ∨ Char.ofNat n = (Char.ofNat (97 + k)).toUpper := by
      decide +kernel
    have hall := @forall_isLower letter
      (fun l => ∀ n < 0x80, (Char.ofNat n).toLower = l ↔ IsEitherCase (Char.ofNat n) l) table lower
    simpa using hall c.toNat ascii
  · have beyond := Nat.le_of_not_lt ascii
    refine iff_of_false ?_ (not_isEitherCase_of_not_ascii lower beyond)
    rw [toLower_of_not_ascii beyond]
    rintro rfl
    have bounds := isLower_iff.mp lower
    omega

def kelvinRun : CaseRun := ⟨0x212A, 0x212A, 1, -8383⟩

/-- No other run leads back to ASCII. -/
theorem shifted_of_mem_runs : ∀ run ∈ alphabeticRuns ++ furtherRuns,
    run = kelvinRun ∨ 0x80 ≤ (run.first : Int) + run.shift := by
  decide +kernel

theorem find?_kelvinSign :
    (alphabeticRuns ++ furtherRuns).find? (·.holds kelvinSign.toNat) = some kelvinRun := by
  decide +kernel

theorem not_isLower_ofNat {n : Nat} (beyond : 0x80 ≤ n) : ¬(Char.ofNat n).isLower := by
  by_cases valid : n.isValidChar
  · have hn : (Char.ofNat n).toNat = n := congrArg Char.toNat (dif_pos valid)
    rw [isLower_iff, hn]
    omega
  · have hn : Char.ofNat n = '\x00' := dif_neg valid
    rw [hn]
    decide

/-- Beyond ASCII the lower case is no letter of ASCII, but for two characters. -/
theorem lowercaseChar_of_not_ascii (beyond : 0x80 ≤ c.toNat) :
    (c = dottedI ∧ lowercaseChar c = ['i', dotAbove]) ∨
      (c = kelvinSign ∧ lowercaseChar c = ['k']) ∨
      c ≠ kelvinSign ∧ ∃ d, lowercaseChar c = [d] ∧ ¬d.isLower := by
  by_cases dotted : c = dottedI
  · subst dotted
    exact .inl ⟨rfl, rfl⟩
  · have not_dotted : c.toNat ≠ 0x130 := fun h => dotted (eq_of_toNat_eq h)
    rw [lowercaseChar, if_neg (by omega), if_neg not_dotted]
    cases hrun : (alphabeticRuns ++ furtherRuns).find? (·.holds c.toNat) with
    | none =>
      refine .inr (.inr ⟨?_, c, rfl, ?_⟩)
      · rintro rfl
        cases find?_kelvinSign.symm.trans hrun
      · rw [isLower_iff]
        omega
    | some run =>
      have holds := List.find?_some hrun
      simp only [CaseRun.holds, Bool.and_eq_true, decide_eq_true_eq] at holds
      rcases shifted_of_mem_runs run (List.mem_of_find?_eq_some hrun) with rfl | shifted
      · have is_kelvin : c = kelvinSign := by
          apply eq_of_toNat_eq
          exact Nat.le_antisymm holds.1.2 holds.1.1
        subst is_kelvin
        exact .inr (.inl ⟨rfl, rfl⟩)
      · refine .inr (.inr ⟨?_, _, rfl, not_isLower_ofNat (by omega)⟩)
        rintro rfl
        obtain rfl := Option.some.inj (find?_kelvinSign.symm.trans hrun)
        revert shifted
        decide

theorem lowercaseChar_of_ascii (ascii : c.toNat < 0x80) : lowercaseChar c = [c.toLower] := by
  rw [lowercaseChar, if_pos ascii]

theorem lowercaseChar_cases (c : Char) :
    (c = dottedI ∧ lowercaseChar c = ['i', dotAbove]) ∨ ∃ d, lowercaseChar c = [d] := by
  by_cases ascii : c.toNat < 0x80
  · exact .inr ⟨_, lowercaseChar_of_ascii ascii⟩
  · rcases lowercaseChar_of_not_ascii (Nat.le_of_not_lt ascii) with
      dotted | ⟨-, hkelvin⟩ | ⟨-, d, hd, -⟩
    · exact .inl dotted
    · exact .inr ⟨_, hkelvin⟩
    · exact .inr ⟨d, hd⟩

/-- A letter is the lower case of the characters that spell it. -/
theorem lowercaseChar_eq_iff (lower : letter.isLower) :
    lowercaseChar c = [letter] ↔ IsSpelling c letter := by
  by_cases ascii : c.toNat < 0x80
  · have not_kelvin : c ≠ kelvinSign := by
      rintro rfl
      revert ascii
      decide
    simp [lowercaseChar_of_ascii ascii, toLower_eq_iff lower, IsSpelling, not_kelvin]
  · have beyond := Nat.le_of_not_lt ascii
    have not_either := not_isEitherCase_of_not_ascii lower beyond
    rcases lowercaseChar_of_not_ascii beyond with
      ⟨rfl, hlower⟩ | ⟨rfl, hlower⟩ | ⟨other, d, hd, not_lower⟩
    · have not_kelvin : dottedI ≠ kelvinSign := by decide
      simp [hlower, IsSpelling, not_either, not_kelvin]
    · simp [hlower, IsSpelling, not_either, eq_comm]
    · rw [hd, IsSpelling]
      have differs : d ≠ letter := by
        rintro rfl
        exact not_lower lower
      simp [differs, not_either, other]

/-! ## Words -/

/-- The first letter of a word comes from the first character alone. -/
theorem lowercaseChar_append_eq_cons_iff (lower : ∀ l ∈ letter :: word, l.isLower) :
    lowercaseChar c ++ ds = letter :: word ↔ IsSpelling c letter ∧ ds = word := by
  obtain ⟨first_lower, others_lower⟩ := List.forall_mem_cons.mp lower
  rw [← lowercaseChar_eq_iff first_lower]
  rcases lowercaseChar_cases c with ⟨-, hlower⟩ | ⟨d, hd⟩
  · rw [hlower]
    simp only [List.cons_append, List.nil_append, List.cons.injEq, reduceCtorEq, and_false,
      false_and, iff_false, not_and]
    rintro - rfl
    exact absurd (others_lower dotAbove List.mem_cons_self) (by decide)
  · simp [hd]

/-- A word of letters is the lower case of a text exactly if the text spells it. -/
theorem Lowercased.eq_iff (lowered : Lowercased cs ds) (lower : ∀ l ∈ word, l.isLower) :
    ds = word ↔ List.Forall₂ IsSpelling cs word := by
  induction lowered generalizing word with
  | nil => rw [List.forall₂_nil_left_iff, eq_comm]
  | char c rest ih =>
    cases word with
    | nil =>
      rcases lowercaseChar_cases c with ⟨-, hlower⟩ | ⟨d, hd⟩
      · simp [hlower]
      · simp [hd]
    | cons letter word =>
      rw [lowercaseChar_append_eq_cons_iff lower, List.forall₂_cons,
        ih (List.forall_mem_cons.mp lower).2]
  | finalSigma rest ih =>
    -- Neither small sigma is a letter of ASCII.
    cases word with
    | nil => simp
    | cons letter word =>
      have first_lower := (List.forall_mem_cons.mp lower).1
      have other_sigma : lowercaseChar 'Σ' = ['σ'] := by decide +kernel
      have not_spelling : ¬IsSpelling 'Σ' letter := by
        rw [← lowercaseChar_eq_iff first_lower, other_sigma]
        rintro ⟨⟩
        revert first_lower
        decide
      have differs : 'ς' ≠ letter := by
        rintro rfl
        revert first_lower
        decide
      simp [not_spelling, differs]

/-- Without a k, only the letters themselves spell a word. -/
theorem forall₂_isSpelling_iff (without : 'k' ∉ word) :
    List.Forall₂ IsSpelling cs word ↔ List.Forall₂ IsEitherCase cs word := by
  induction word generalizing cs with
  | nil => simp
  | cons letter word ih =>
    rw [List.mem_cons, not_or] at without
    have same {c : Char} : IsSpelling c letter ↔ IsEitherCase c letter := by
      simp [IsSpelling, Ne.symm without.1]
    simp only [List.forall₂_cons_right_iff, same, ih without.2]

end FakeData.Text
