import FakeData.Proofs.Synthesis.Arrangement

/-!
# Layouts

Which characters may stand at which place of a text. The special character moves everything that
was written before it, so the uppercase letter of a long text ends up one place after the middle.
The texts that can be made are exactly those that keep to the layout, and each of them is made by
one sequence of draws.
-/
namespace FakeData.Synthesis

variable {classes : CharClasses} {length k m p : Nat}

/-! ## The order in which the draws stand -/

def orderTo (classes : CharClasses) (length m : Nat) : List Nat :=
  arrange ((List.range m).map (slotAt classes length)) (List.range m) []

theorem map_val_order : (order classes length).map Fin.val = orderTo classes length length := by
  rw [order, arrange_map, List.map_nil, plan_eq_slots]
  exact congrArg (arrange _ · []) List.map_coe_finRange_eq_range

theorem orderTo_succ : orderTo classes length (m + 1) =
    (orderTo classes length m).insertIdx (slotAt classes length m).place m := by
  have h : ((List.range m).map (slotAt classes length)).length = (List.range m).length :=
    List.length_map _
  rw [orderTo, List.range_succ, List.map_append, List.map_singleton, arrange_append h]
  simp [orderTo]

theorem place_slotAt_le : (slotAt classes length k).place ≤ k := by
  cases h : scheduled classes length k with
  | whole | digits => simp [slotAt, h, Pool.place]
  | special => simp [slotAt, h, Pool.place]
  | uppercase =>
    obtain ⟨-, hu⟩ := scheduled_eq_uppercase_iff.mp h
    simp only [slotAt, h, Pool.place]
    rw [hu, uppercaseDraw]
    split <;> omega

theorem length_orderTo : (orderTo classes length m).length = m := by
  induction m with
  | zero => simp [orderTo]
  | succ m ih =>
    have inside : (slotAt classes length m).place ≤ (orderTo classes length m).length := by
      rw [ih]
      exact place_slotAt_le
    rw [orderTo_succ, List.length_insertIdx_of_le_length inside, ih]

/-- What goes to the end stands after all that is written. -/
theorem orderTo_succ_of_last (h : (slotAt classes length m).place = m) :
    orderTo classes length (m + 1) = orderTo classes length m ++ [m] := by
  have hend := List.insertIdx_length_self (l := orderTo classes length m) (x := m)
  rw [length_orderTo] at hend
  rw [orderTo_succ, h, hend]

theorem orderTo_eq_range (h : ∀ k < m, (slotAt classes length k).place = k) :
    orderTo classes length m = List.range m := by
  induction m with
  | zero => simp [orderTo]
  | succ m ih =>
    have before : ∀ k < m, (slotAt classes length k).place = k := by
      intro k hk
      exact h k (by omega)
    rw [orderTo_succ_of_last (h m (by omega)), ih before, List.range_succ]

/-- Only the special character goes elsewhere than to the end, and the uppercase letter where the
two are inserted together. -/
theorem place_slotAt (s : ¬SpecialFires classes length k)
    (u : Meets classes length → k ≠ length / 2 + 1) : (slotAt classes length k).place = k := by
  cases h : scheduled classes length k with
  | whole | digits => simp [slotAt, h, Pool.place]
  | special => exact absurd (scheduled_eq_special_iff.mp h) s
  | uppercase =>
    obtain ⟨uppercase, hu⟩ := scheduled_eq_uppercase_iff.mp h
    have apart : ¬Meets classes length := by
      intro meets
      exact u meets (hu.trans (uppercaseDraw_of_meets meets))
    rw [uppercaseDraw_of_not_meets uppercase apart] at hu
    simpa [slotAt, h, Pool.place] using hu.symm

/-- Without a special character the draws stand in the order in which they are made. -/
theorem orderTo_of_plain (plain : ¬(classes.special ∧ 3 ≤ length)) :
    orderTo classes length length = List.range length := by
  apply orderTo_eq_range
  intro k _
  apply place_slotAt
  · rintro ⟨special, h3, -⟩
    exact plain ⟨special, h3⟩
  · rintro ⟨special, -, five_or_six⟩
    exact absurd ⟨special, by omega⟩ plain

/-- The special character comes to stand before all that was written, and two draws follow. -/
theorem orderTo_of_special (special : classes.special) (apart : ¬Meets classes (m + 3)) :
    orderTo classes (m + 3) (m + 3) = m :: List.range m ++ [m + 1] ++ [m + 2] := by
  have elsewhere (k : Nat) (hk : k ≠ m) : (slotAt classes (m + 3) k).place = k := by
    apply place_slotAt
    · rintro ⟨-, -, hs⟩
      omega
    · intro meets
      exact absurd meets apart
  have front : (slotAt classes (m + 3) m).place = 0 := by
    have fires : SpecialFires classes (m + 3) m := ⟨special, by omega, by omega⟩
    simp [slotAt, scheduled_eq_special_iff.mpr fires, Pool.place]
  have before : orderTo classes (m + 3) m = List.range m := by
    apply orderTo_eq_range
    intro k hk
    exact elsewhere k (by omega)
  rw [orderTo_succ_of_last (elsewhere (m + 2) (by omega)),
    orderTo_succ_of_last (elsewhere (m + 1) (by omega)), orderTo_succ, front, before,
    List.insertIdx_zero]

/-! ## The pools of places -/

/-- The special character stands in front. -/
def SpecialLaid (classes : CharClasses) (length p : Nat) : Prop :=
  classes.special ∧ 3 ≤ length ∧ p = 0

instance : Decidable (SpecialLaid classes length p) := inferInstanceAs (Decidable (_ ∧ _ ∧ _))

def uppercasePlace (classes : CharClasses) (length : Nat) : Nat :=
  if classes.special ∧ 7 ≤ length then length / 2 + 1 else length / 2

def UppercaseLaid (classes : CharClasses) (length p : Nat) : Prop :=
  classes.uppercase ∧ p = uppercasePlace classes length

instance : Decidable (UppercaseLaid classes length p) := inferInstanceAs (Decidable (_ ∧ _))

/-- The pool of a place. The digit is drawn last and stays where it is put. -/
def layout (classes : CharClasses) (length p : Nat) : Pool :=
  .select (SpecialLaid classes length p) (UppercaseLaid classes length p)
    (DigitDrawn classes length p)

theorem UppercaseLaid.not_specialLaid (h : UppercaseLaid classes length p) :
    ¬SpecialLaid classes length p := by
  rintro ⟨-, h3, hs⟩
  obtain ⟨-, hu⟩ := h
  simp only [uppercasePlace] at hu
  split at hu <;> omega

theorem layout_eq_special_iff :
    layout classes length p = .special ↔ SpecialLaid classes length p :=
  Pool.select_eq_special_iff

theorem layout_eq_uppercase_iff :
    layout classes length p = .uppercase ↔ UppercaseLaid classes length p :=
  Pool.select_eq_uppercase_iff UppercaseLaid.not_specialLaid

theorem layout_eq_digits_iff :
    layout classes length p = .digits ↔ DigitDrawn classes length p := by
  apply Pool.select_eq_digits_iff
  · rintro ⟨-, hd, -⟩ ⟨-, h3, hs⟩
    omega
  · rintro ⟨-, hd, longer⟩ ⟨uppercase, hu⟩
    have h3 : 2 < length := by
      by_contra short
      exact longer ⟨uppercase, by omega⟩
    simp only [uppercasePlace] at hu
    split at hu <;> omega

/-- A draw and a place have the same pool if they have the same characters to themselves. -/
theorem scheduled_eq_layout (s : SpecialFires classes length k ↔ SpecialLaid classes length p)
    (u : UppercaseDrawn classes length k ↔ UppercaseLaid classes length p)
    (d : DigitDrawn classes length k ↔ DigitDrawn classes length p) :
    scheduled classes length k = layout classes length p := by
  simp only [scheduled, layout, Pool.select, s, u, d]

theorem scheduled_eq_layout_of_plain (plain : ¬(classes.special ∧ 3 ≤ length)) :
    scheduled classes length k = layout classes length k := by
  have s : SpecialFires classes length k ↔ SpecialLaid classes length k := by
    constructor
    · rintro ⟨special, h3, -⟩
      exact absurd ⟨special, h3⟩ plain
    · rintro ⟨special, h3, -⟩
      exact absurd ⟨special, h3⟩ plain
  have hdraw : uppercaseDraw classes length = length / 2 := by
    refine if_neg ?_
    rintro ⟨special, five_or_six⟩
    exact plain ⟨special, by omega⟩
  have hplace : uppercasePlace classes length = length / 2 := by
    refine if_neg ?_
    rintro ⟨special, h7⟩
    exact plain ⟨special, by omega⟩
  apply scheduled_eq_layout s _ Iff.rfl
  rw [UppercaseDrawn, UppercaseLaid, hdraw, hplace]

/-- Next to the special character, a draw before it stands one place on, and a draw after it stands
at its number. -/
theorem scheduled_eq_layout_of_special (special : classes.special)
    (apart : ¬Meets classes (m + 3)) (h : (k < m ∧ p = k + 1) ∨ (m < k ∧ p = k)) :
    scheduled classes (m + 3) k = layout classes (m + 3) p := by
  apply scheduled_eq_layout
  · constructor
    · rintro ⟨-, -, hs⟩
      omega
    · rintro ⟨-, -, hs⟩
      omega
  · by_cases uppercase : classes.uppercase
    · have hdraw := uppercaseDraw_of_not_meets uppercase apart
      have five_or_six : ¬(m + 3 = 5 ∨ m + 3 = 6) := fun h => apart ⟨special, uppercase, h⟩
      simp only [UppercaseDrawn, UppercaseLaid, hdraw, uppercasePlace, uppercase, special, true_and]
      split <;> omega
    · constructor
      · rintro ⟨hu, -⟩
        exact absurd hu uppercase
      · rintro ⟨hu, -⟩
        exact absurd hu uppercase
  · have last : k = m + 3 - 1 ↔ p = m + 3 - 1 := by omega
    simp only [DigitDrawn, last]

/-- The pools of the draws, in the order in which these stand, are those of the places. -/
theorem map_scheduled_orderTo (classes : CharClasses) (length : Nat) :
    (orderTo classes length length).map (scheduled classes length) =
      (List.range length).map (layout classes length) := by
  by_cases moved : classes.special ∧ 3 ≤ length
  · obtain ⟨special, h3⟩ := moved
    obtain ⟨m, rfl⟩ := Nat.exists_eq_add_of_le' h3
    by_cases meets : Meets classes (m + 3)
    · -- Two lengths are left, with a digit or without.
      obtain ⟨uppercase, digits, special⟩ := classes
      obtain ⟨rfl, rfl, five_or_six⟩ := meets
      obtain rfl | rfl : m = 2 ∨ m = 3 := by omega
      · cases digits <;> decide
      · cases digits <;> decide
    · have front : scheduled classes (m + 3) m = layout classes (m + 3) 0 := by
        rw [scheduled_eq_special_iff.mpr ⟨special, by omega, by omega⟩,
          layout_eq_special_iff.mpr ⟨special, by omega, rfl⟩]
      have before : ∀ k ∈ List.range m,
          scheduled classes (m + 3) k = layout classes (m + 3) (k + 1) := by
        intro k hk
        exact scheduled_eq_layout_of_special special meets (.inl ⟨List.mem_range.mp hk, rfl⟩)
      have after (k : Nat) (hk : m < k) :
          scheduled classes (m + 3) k = layout classes (m + 3) k :=
        scheduled_eq_layout_of_special special meets (.inr ⟨hk, rfl⟩)
      rw [orderTo_of_special special meets]
      rw [List.range_succ, List.range_succ, List.range_succ_eq_map]
      simp only [List.map_append, List.map_cons, List.map_nil, List.map_map, front,
        after (m + 1) (by omega), after (m + 2) (by omega), List.map_congr_left before]
      rfl
  · rw [orderTo_of_plain moved]
    apply List.map_congr_left
    intro k _
    exact scheduled_eq_layout_of_plain moved

/-- A place has the pool of the draw whose character stands there. -/
theorem scheduled_drawAt (classes : CharClasses) (p : Fin length) :
    scheduled classes length (drawAt classes length p) = layout classes length p := by
  have h := congrArg (·[p.val]?) (map_scheduled_orderTo classes length)
  simpa [← map_val_order, getElem?_order] using h

/-- Whether the characters of a pool may stand in a text. -/
def Pool.inUse (classes : CharClasses) : Pool → Bool
  | .whole => true
  | .uppercase => classes.uppercase
  | .digits => classes.digits
  | .special => classes.special

theorem inUse_layout : (layout classes length p).inUse classes := by
  cases h : layout classes length p with
  | whole => rfl
  | special => exact (layout_eq_special_iff.mp h).1
  | uppercase => exact (layout_eq_uppercase_iff.mp h).1
  | digits => exact (layout_eq_digits_iff.mp h).1

/-! ## Texts that keep to the layout -/

/-- The characters of the alphabet are the lowercase letters and those of the classes in use. -/
theorem mem_alphabet {c : Char} :
    c ∈ classes.alphabet ↔ c ∈ lowercase ∨ (classes.uppercase ∧ c ∈ uppercase) ∨
      (classes.digits ∧ c ∈ digits) ∨ (classes.special ∧ c ∈ special) := by
  simp only [CharClasses.alphabet, List.mem_append, List.mem_ite_nil_right, or_assoc]

theorem mem_alphabet_of_inUse {pool : Pool} {c : Char} (inUse : pool.inUse classes)
    (h : c ∈ pool.characters classes) : c ∈ classes.alphabet := by
  cases pool with
  | whole => exact h
  | uppercase => exact mem_alphabet.mpr (.inr (.inl ⟨inUse, h⟩))
  | digits => exact mem_alphabet.mpr (.inr (.inr (.inl ⟨inUse, h⟩)))
  | special => exact mem_alphabet.mpr (.inr (.inr (.inr ⟨inUse, h⟩)))

/-- The text has one of the characters at a place. -/
def StandsAt (text : String) (p : Nat) (characters : List Char) : Prop :=
  ∃ c ∈ text.toList[p]?, c ∈ characters

/-- The texts of a length that can be made. -/
structure Laid (classes : CharClasses) (length : Nat) (text : String) : Prop where
  length_eq : text.toList.length = length
  alphabet : ∀ c ∈ text.toList, c ∈ classes.alphabet
  front : 3 ≤ length → classes.special → StandsAt text 0 special
  back : 3 ≤ length → classes.digits → StandsAt text (length - 1) digits
  middle : 3 ≤ length → classes.uppercase →
    StandsAt text (if classes.special ∧ 7 ≤ length then length / 2 + 1 else length / 2) uppercase
  short_uppercase : length = 1 ∨ length = 2 → classes.uppercase →
    StandsAt text (length - 1) uppercase
  short_digits : length = 1 ∨ length = 2 → ¬classes.uppercase → classes.digits →
    StandsAt text (length - 1) digits

theorem uppercasePlace_of_short (classes : CharClasses) (short : length = 1 ∨ length = 2) :
    uppercasePlace classes length = length - 1 := by
  rw [uppercasePlace, if_neg (by omega)]
  omega

theorem Laid.standsAt {text : String} (laid : Laid classes length text) (inside : p < length) :
    StandsAt text p ((layout classes length p).characters classes) := by
  cases h : layout classes length p with
  | whole =>
    have inside : p < text.toList.length := by rwa [laid.length_eq]
    exact ⟨_, List.getElem?_eq_getElem inside, laid.alphabet _ (List.getElem_mem inside)⟩
  | special =>
    obtain ⟨special, h3, rfl⟩ := layout_eq_special_iff.mp h
    exact laid.front h3 special
  | uppercase =>
    obtain ⟨uppercase, rfl⟩ := layout_eq_uppercase_iff.mp h
    by_cases h3 : 3 ≤ length
    · exact laid.middle h3 uppercase
    · have short : length = 1 ∨ length = 2 := by omega
      rw [uppercasePlace_of_short classes short]
      exact laid.short_uppercase short uppercase
  | digits =>
    obtain ⟨digits, rfl, longer⟩ := layout_eq_digits_iff.mp h
    by_cases h3 : 3 ≤ length
    · exact laid.back h3 digits
    · have short : length = 1 ∨ length = 2 := by omega
      have lowercase : ¬classes.uppercase := fun uppercase => longer ⟨uppercase, by omega⟩
      exact laid.short_digits short lowercase digits

theorem laid_of_standsAt {text : String} (length_eq : text.toList.length = length)
    (h : ∀ p < length, StandsAt text p ((layout classes length p).characters classes)) :
    Laid classes length text := by
  have at_pool (p : Nat) (inside : p < length) {pool : Pool}
      (hpool : layout classes length p = pool) : StandsAt text p (pool.characters classes) :=
    hpool ▸ h p inside
  refine ⟨length_eq, ?_, ?_, ?_, ?_, ?_, ?_⟩
  · intro c hc
    obtain ⟨p, inside, rfl⟩ := List.mem_iff_getElem.mp hc
    obtain ⟨c, hget, hmem⟩ := h p (by omega)
    rw [List.getElem?_eq_getElem inside] at hget
    obtain rfl := Option.some.inj hget
    exact mem_alphabet_of_inUse inUse_layout hmem
  · intro h3 special
    exact at_pool 0 (by omega) (layout_eq_special_iff.mpr ⟨special, h3, rfl⟩)
  · intro h3 digits
    exact at_pool _ (by omega) (layout_eq_digits_iff.mpr ⟨digits, rfl, by omega⟩)
  · intro h3 uppercase
    have inside : uppercasePlace classes length < length := by
      simp only [uppercasePlace]
      split <;> omega
    exact at_pool _ inside (layout_eq_uppercase_iff.mpr ⟨uppercase, rfl⟩)
  · intro short uppercase
    have hplace := uppercasePlace_of_short classes short
    exact at_pool _ (by omega) (layout_eq_uppercase_iff.mpr ⟨uppercase, hplace.symm⟩)
  · intro short lowercase digits
    exact at_pool _ (by omega)
      (layout_eq_digits_iff.mpr ⟨digits, rfl, fun longer => lowercase longer.1⟩)

/-! ## Texts and draws -/

/-- Leaving classes out keeps the characters of the others in their order. -/
theorem alphabet_sublist (classes : CharClasses) :
    classes.alphabet.Sublist (lowercase ++ uppercase ++ digits ++ special) := by
  have some_of (used : Bool) (characters : List Char) :
      (if used then characters else []).Sublist characters := by
    cases used <;> simp
  exact (((List.Sublist.refl _).append (some_of _ _)).append (some_of _ _)).append (some_of _ _)

/-- No pool has a character twice. -/
theorem Pool.nodup_characters (classes : CharClasses) (pool : Pool) :
    (pool.characters classes).Nodup := by
  have all_distinct :
      (lowercase ++ Synthesis.uppercase ++ Synthesis.digits ++ Synthesis.special).Nodup := by
    decide +kernel
  cases pool with
  | whole => exact all_distinct.sublist (alphabet_sublist classes)
  | uppercase =>
    have distinct : Synthesis.uppercase.Nodup := by decide
    exact distinct
  | digits =>
    have distinct : Synthesis.digits.Nodup := by decide
    exact distinct
  | special =>
    have distinct : Synthesis.special.Nodup := by decide
    exact distinct

namespace Draws

theorem text_injective : Function.Injective (@text classes length) := by
  intro draws others h
  funext k
  have hdraws := draws.getElem?_text ((drawAt classes length).symm k)
  have hothers := others.getElem?_text ((drawAt classes length).symm k)
  rw [Equiv.apply_symm_apply] at hdraws hothers
  rw [h, hothers] at hdraws
  have hcharacter : draws.character k = others.character k := (Option.some.inj hdraws).symm
  exact (Pool.nodup_characters classes _).get_inj_iff.mp hcharacter

theorem laid_text (draws : Draws classes length) : Laid classes length draws.text := by
  apply laid_of_standsAt draws.length_text
  intro p inside
  refine ⟨_, draws.getElem?_text ⟨p, inside⟩, ?_⟩
  have hpool := scheduled_drawAt classes (⟨p, inside⟩ : Fin length)
  rw [← hpool]
  exact List.get_mem _ _

theorem exists_of_laid {text : String} (laid : Laid classes length text) :
    ∃ draws : Draws classes length, draws.text = text := by
  have hdraw (k : Fin length) : ∃ i : Fin (boundAt classes length k),
      text.toList[((drawAt classes length).symm k).val]? =
        some (((scheduled classes length k).characters classes).get i) := by
    have hpool := scheduled_drawAt classes ((drawAt classes length).symm k)
    rw [Equiv.apply_symm_apply] at hpool
    obtain ⟨c, hget, hmem⟩ := laid.standsAt ((drawAt classes length).symm k).isLt
    rw [← hpool] at hmem
    obtain ⟨i, rfl⟩ := List.get_of_mem hmem
    exact ⟨i, hget⟩
  choose draws hdraws using hdraw
  refine ⟨draws, String.toList_injective (List.ext_getElem? fun p => ?_)⟩
  by_cases inside : p < length
  · have hget := hdraws (drawAt classes length ⟨p, inside⟩)
    rw [Equiv.symm_apply_apply] at hget
    exact (getElem?_text draws ⟨p, inside⟩).trans hget.symm
  · rw [List.getElem?_eq_none (by rw [length_text draws]; omega),
      List.getElem?_eq_none (by rw [laid.length_eq]; omega)]

end Draws

end FakeData.Synthesis

namespace FakeData

open Synthesis

/-- Whatever a source answers, a text is that of its draws, and all draws within the bounds of the
schedule can be answered. Each draw has one place, where the character that it picks stands, and
these places are a permutation that depends on the classes and the length only. So no two
sequences of draws make the same text, and the texts that are made are those that keep to the
layout. -/
theorem synthesize_permutes_draws (classes : CharClasses) (length : Nat) :
    (∀ {σ : Type} [IndexSource σ] (source : σ), ∃ draws : Draws classes length,
        (synthesize classes length).answers source = draws.answers ∧
          ((synthesize classes length).run source).1 = draws.text) ∧
      (∀ draws : Draws classes length,
        (synthesize classes length).answers (Script.ofAnswers draws.answers) = draws.answers) ∧
      (∃ place : Equiv.Perm (Fin length), ∀ (draws : Draws classes length) (k : Fin length),
        draws.text.toList[(place k).val]? = some (draws.character k)) ∧
      Function.Injective (@Draws.text classes length) ∧
      Set.range (@Draws.text classes length) = {text | Laid classes length text} := by
  refine ⟨?_, ?_, ⟨(drawAt classes length).symm, ?_⟩, Draws.text_injective, ?_⟩
  · intro σ _ source
    exact exists_draws_of_ends (Draw.ends_run (synthesize classes length) source)
  · intro draws
    exact draws.ends.answers_script
  · intro draws k
    have h := draws.getElem?_text ((drawAt classes length).symm k)
    rwa [Equiv.apply_symm_apply] at h
  · ext text
    constructor
    · rintro ⟨draws, rfl⟩
      exact draws.laid_text
    · intro laid
      exact Draws.exists_of_laid laid

end FakeData
