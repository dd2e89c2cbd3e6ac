import FakeData.Proofs.Synthesis

/-!
# Schedules

A plan in closed form. The pool of each draw, and the place of its character in the text so far,
depend on the number of the draw, the length and the classes only. So the bounds that a text asks
for are known before anything is drawn.
-/
namespace FakeData.Synthesis

variable {classes : CharClasses} {length start k : Nat}

/-! ## Pools in closed form -/

/-- The pool of the first condition that holds. -/
def Pool.select (special uppercase digits : Prop) [Decidable special] [Decidable uppercase]
    [Decidable digits] : Pool :=
  if special then .special else if uppercase then .uppercase else if digits then .digits else .whole

section Select

variable {special uppercase digits : Prop} [Decidable special] [Decidable uppercase]
  [Decidable digits]

theorem Pool.select_eq_special_iff : select special uppercase digits = .special ↔ special := by
  by_cases s : special <;> by_cases u : uppercase <;> by_cases d : digits <;> simp [select, s, u, d]

theorem Pool.select_eq_uppercase_iff (apart : uppercase → ¬special) :
    select special uppercase digits = .uppercase ↔ uppercase := by
  by_cases u : uppercase
  · simp [select, u, apart u]
  · by_cases s : special <;> by_cases d : digits <;> simp [select, s, u, d]

theorem Pool.select_eq_digits_iff (before : digits → ¬special) (between : digits → ¬uppercase) :
    select special uppercase digits = .digits ↔ digits := by
  by_cases d : digits
  · simp [select, d, before d, between d]
  · by_cases s : special <;> by_cases u : uppercase <;> simp [select, s, u, d]

theorem Pool.select_eq_whole (s : ¬special) (u : ¬uppercase) (d : ¬digits) :
    select special uppercase digits = .whole := by
  simp [select, s, u, d]

end Select

instance : Decidable (SpecialFires classes length k) :=
  inferInstanceAs (Decidable (_ ∧ _ ∧ _))

/-- The draw for the uppercase letter in the middle. In a text of five or six characters the
special character is inserted at the same time and is drawn before it. -/
def uppercaseDraw (classes : CharClasses) (length : Nat) : Nat :=
  if classes.special ∧ (length = 5 ∨ length = 6) then length / 2 + 1 else length / 2

def UppercaseDrawn (classes : CharClasses) (length k : Nat) : Prop :=
  classes.uppercase ∧ k = uppercaseDraw classes length

instance : Decidable (UppercaseDrawn classes length k) := inferInstanceAs (Decidable (_ ∧ _))

/-- The draw is for the digit, which the uppercase letter displaces in a text of one or two. -/
def DigitDrawn (classes : CharClasses) (length k : Nat) : Prop :=
  classes.digits ∧ k = length - 1 ∧ ¬(classes.uppercase ∧ length ≤ 2)

instance : Decidable (DigitDrawn classes length k) := inferInstanceAs (Decidable (_ ∧ _ ∧ ¬_))

/-- The pool of a draw. The special character has its own draw where it fires. -/
def scheduled (classes : CharClasses) (length k : Nat) : Pool :=
  .select (SpecialFires classes length k) (UppercaseDrawn classes length k)
    (DigitDrawn classes length k)

theorem UppercaseDrawn.not_specialFires (h : UppercaseDrawn classes length k) :
    ¬SpecialFires classes length k := by
  rintro ⟨special, h3, hs⟩
  obtain ⟨-, hu⟩ := h
  simp only [uppercaseDraw, special, true_and] at hu
  split at hu <;> omega

theorem DigitDrawn.not_specialFires (h : DigitDrawn classes length k) :
    ¬SpecialFires classes length k := by
  rintro ⟨-, h3, hs⟩
  obtain ⟨-, hd, -⟩ := h
  omega

theorem DigitDrawn.not_uppercaseDrawn (h : DigitDrawn classes length k) :
    ¬UppercaseDrawn classes length k := by
  rintro ⟨uppercase, hu⟩
  obtain ⟨-, hd, longer⟩ := h
  have h3 : 2 < length := by
    by_contra short
    exact longer ⟨uppercase, by omega⟩
  simp only [uppercaseDraw] at hu
  split at hu <;> omega

theorem scheduled_eq_special_iff :
    scheduled classes length k = .special ↔ SpecialFires classes length k :=
  Pool.select_eq_special_iff

theorem scheduled_eq_uppercase_iff :
    scheduled classes length k = .uppercase ↔ UppercaseDrawn classes length k :=
  Pool.select_eq_uppercase_iff UppercaseDrawn.not_specialFires

theorem scheduled_eq_digits_iff :
    scheduled classes length k = .digits ↔ DigitDrawn classes length k :=
  Pool.select_eq_digits_iff DigitDrawn.not_specialFires DigitDrawn.not_uppercaseDrawn

/-! ## Slots in closed form -/

def Pool.place (length written : Nat) : Pool → Nat
  | .special => 0
  | .uppercase => length / 2
  | .whole | .digits => written

def slotAt (classes : CharClasses) (length k : Nat) : Slot :=
  ⟨scheduled classes length k, (scheduled classes length k).place length k⟩

/-- The special and the uppercase character are inserted in one pass. -/
def Meets (classes : CharClasses) (length : Nat) : Prop :=
  classes.special ∧ classes.uppercase ∧ (length = 5 ∨ length = 6)

theorem uppercaseDraw_of_meets (meets : Meets classes length) :
    uppercaseDraw classes length = length / 2 + 1 :=
  if_pos ⟨meets.1, meets.2.2⟩

theorem uppercaseDraw_of_not_meets (uppercase : classes.uppercase) (apart : ¬Meets classes length) :
    uppercaseDraw classes length = length / 2 := by
  refine if_neg ?_
  rintro ⟨special, five_or_six⟩
  exact apart ⟨special, uppercase, five_or_six⟩

/-- A pass can start after so many characters: only the one that would start between two
characters inserted together does not. -/
def Starts (classes : CharClasses) (length start : Nat) : Prop :=
  Meets classes length → start ≠ length / 2 + 1

/-- Where a pass starts, the uppercase letter fires exactly when it is drawn, unless the special
character is drawn before it in the same pass. -/
theorem uppercaseFires_iff (starts : Starts classes length start)
    (s : ¬SpecialFires classes length start) :
    UppercaseFires classes length start ↔ UppercaseDrawn classes length start := by
  by_cases meets : Meets classes length
  · have between := starts meets
    obtain ⟨special, uppercase, five_or_six⟩ := meets
    have hdraw : uppercaseDraw classes length = length / 2 + 1 :=
      if_pos ⟨special, five_or_six⟩
    have hmiddle : start ≠ length / 2 := by
      intro hu
      exact s ⟨special, by omega, by omega⟩
    constructor
    · rintro ⟨-, hu⟩
      exact absurd hu hmiddle
    · rintro ⟨-, hu⟩
      rw [hdraw] at hu
      exact absurd hu between
  · constructor
    · rintro ⟨uppercase, hu⟩
      exact ⟨uppercase, by rw [uppercaseDraw_of_not_meets uppercase meets, hu]⟩
    · rintro ⟨uppercase, hu⟩
      exact ⟨uppercase, by rw [hu, uppercaseDraw_of_not_meets uppercase meets]⟩

/-- A pass that starts has the slots of its draws. -/
theorem pass_eq_slots (inside : start < length) (starts : Starts classes length start) :
    pass classes length start =
      (List.range' start (pass classes length start).length).map (slotAt classes length) := by
  have h := pass_cases classes inside
  generalize pass classes length start = slots at h ⊢
  cases h with
  | whole s u d =>
    have hpool : scheduled classes length start = .whole := by
      refine Pool.select_eq_whole s (mt (uppercaseFires_iff starts s).mpr u) ?_
      rintro ⟨digits, hd, -⟩
      exact d ⟨digits, hd⟩
    simp [slotAt, hpool, Pool.place]
  | special s u =>
    have hpool := scheduled_eq_special_iff.mpr s
    simp [slotAt, hpool, Pool.place]
  | uppercase s u d =>
    have hpool := scheduled_eq_uppercase_iff.mpr ((uppercaseFires_iff starts s).mp u)
    have hplace : start = length / 2 := u.2
    simpa [slotAt, hpool, Pool.place] using hplace
  | digits u d =>
    have hlonger : ¬(classes.uppercase ∧ length ≤ 2) := by
      rintro ⟨uppercase, short⟩
      obtain ⟨-, hd⟩ := d
      exact u ⟨uppercase, by omega⟩
    have hpool := scheduled_eq_digits_iff.mpr ⟨d.1, d.2, hlonger⟩
    simp [slotAt, hpool, Pool.place]
  | meeting s u five_or_six =>
    have hfirst := scheduled_eq_special_iff.mpr s
    have hsecond : scheduled classes length (start + 1) = .uppercase := by
      refine scheduled_eq_uppercase_iff.mpr ⟨u.1, ?_⟩
      rw [uppercaseDraw_of_meets ⟨s.1, u.1, five_or_six⟩, u.2]
    have hplace : start = length / 2 := u.2
    simpa [slotAt, hfirst, hsecond, Pool.place, List.range'_succ] using hplace

/-- After a pass that starts another one can start. -/
theorem starts_next (inside : start < length) (starts : Starts classes length start) :
    Starts classes length (start + (pass classes length start).length) := by
  intro meets
  have between := starts meets
  obtain ⟨special, uppercase, five_or_six⟩ := meets
  have h := pass_cases classes inside
  generalize pass classes length start = slots at h ⊢
  -- One character more would be in between only from the middle, where two are inserted.
  have one_more
      (apart : ¬(SpecialFires classes length start ∧ UppercaseFires classes length start)) :
      start + 1 ≠ length / 2 + 1 := by
    intro hstart
    exact apart ⟨⟨special, by omega, by omega⟩, uppercase, by omega⟩
  cases h with
  | whole s => exact one_more fun both => s both.1
  | special _ u => exact one_more fun both => u both.2
  | uppercase s => exact one_more fun both => s both.1
  | digits u => exact one_more fun both => u both.2
  | meeting s u =>
    obtain ⟨-, hu⟩ := u
    simp only [List.length_cons, List.length_nil]
    omega

/-- The slots of a plan, in the order in which they are filled. -/
theorem plan_eq_slots :
    plan classes length = (List.range length).map (slotAt classes length) := by
  have h : Starts classes length 0 → plan classes length =
      (List.range' 0 (plan classes length).length).map (slotAt classes length) := by
    refine plan_induction (motive := fun start slots => Starts classes length start →
      slots = (List.range' start slots.length).map (slotAt classes length)) ?_ ?_
    · intro _
      rfl
    · intro start rest inside ih starts
      have hpass := pass_eq_slots inside starts
      have hrest := ih (starts_next inside starts)
      rw [List.length_append, ← List.range'_append_1, List.map_append, ← hpass, ← hrest]
  have first : Starts classes length 0 := by
    intro _
    omega
  rw [h first, length_plan, List.range_eq_range']

def boundAt (classes : CharClasses) (length k : Nat) : Nat :=
  ((scheduled classes length k).characters classes).length

end FakeData.Synthesis

namespace FakeData

open Synthesis

/-- The bounds that a text asks for are those of its schedule, whatever is drawn. One draw is for
the special character and one for the digit, three and one before the end. The draw for the
uppercase letter is in the middle, or one later where the special character comes between. All
others are from the whole alphabet. -/
theorem synthesize_bounds_scheduled (classes : CharClasses) (length : Nat) :
    (∀ {σ : Type} [IndexSource σ] (source : σ),
      (synthesize classes length).bounds source =
        (List.range length).map (boundAt classes length)) ∧
      ∀ k,
        let forSpecial := classes.special ∧ 3 ≤ length ∧ k = length - 3
        let forUppercase := classes.uppercase ∧
          k = if classes.special ∧ (length = 5 ∨ length = 6) then length / 2 + 1 else length / 2
        let forDigit := classes.digits ∧ k = length - 1 ∧ ¬(classes.uppercase ∧ length ≤ 2)
        (forSpecial → boundAt classes length k = special.length) ∧
          (forUppercase → boundAt classes length k = uppercase.length) ∧
          (forDigit → boundAt classes length k = digits.length) ∧
          (¬forSpecial → ¬forUppercase → ¬forDigit →
            boundAt classes length k = classes.alphabet.length) := by
  constructor
  · intro σ _ source
    have h := Draw.ends_run (synthesize classes length) source
    rw [Draw.bounds_eq_answers, bounds_synthesize h, plan_eq_slots, List.map_map]
    rfl
  · intro k forSpecial forUppercase forDigit
    have of_pool {pool : Pool} (h : scheduled classes length k = pool) :
        boundAt classes length k = (pool.characters classes).length := by
      rw [boundAt, h]
    refine ⟨?_, ?_, ?_, ?_⟩
    · intro h
      exact of_pool (scheduled_eq_special_iff.mpr h)
    · intro h
      exact of_pool (scheduled_eq_uppercase_iff.mpr h)
    · intro h
      exact of_pool (scheduled_eq_digits_iff.mpr h)
    · intro s u d
      exact of_pool (Pool.select_eq_whole s u d)

end FakeData
