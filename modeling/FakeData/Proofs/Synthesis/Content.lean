import FakeData.Proofs.Synthesis.Layout
import Mathlib.Data.String.Basic

/-!
# Contents of texts

What a text is made of can be read off its layout: characters of the classes in use only, one byte
each, and from three characters on one of every class.
-/
namespace FakeData.Synthesis

open Draw (Answer Ends)

variable {classes : CharClasses} {length : Nat} {text : String} {answers : List Answer}

/-- Every text keeps to the layout. -/
theorem laid_of_ends (h : Ends (synthesize classes length) answers text) :
    Laid classes length text := by
  obtain ⟨draws, -, rfl⟩ := exists_draws_of_ends h
  exact draws.laid_text

theorem length_synthesize (h : Ends (synthesize classes length) answers text) :
    text.toList.length = length :=
  (laid_of_ends h).length_eq

theorem mem_alphabet_of_mem_synthesize {c : Char}
    (h : Ends (synthesize classes length) answers text) (hc : c ∈ text.toList) :
    c ∈ classes.alphabet :=
  (laid_of_ends h).alphabet c hc

theorem StandsAt.exists_mem {p : Nat} {characters : List Char} (h : StandsAt text p characters) :
    ∃ c ∈ text.toList, c ∈ characters := by
  obtain ⟨c, hget, hc⟩ := h
  exact ⟨c, List.mem_of_getElem? hget, hc⟩

/-- From three characters on a text has a character of every further class in use. -/
theorem exists_mem_synthesize (h : Ends (synthesize classes length) answers text)
    (h3 : 3 ≤ length) (pool : Pool) (special : pool ≠ .whole) (inUse : pool.inUse classes) :
    ∃ c ∈ text.toList, c ∈ pool.characters classes := by
  have laid := laid_of_ends h
  cases pool with
  | whole => exact absurd rfl special
  | special => exact (laid.front h3 inUse).exists_mem
  | uppercase => exact (laid.middle h3 inUse).exists_mem
  | digits => exact (laid.back h3 inUse).exists_mem

/-- Each character of the alphabet takes one byte, so places in a text count bytes as well. -/
theorem utf8Size_of_mem_alphabet {c : Char} (h : c ∈ classes.alphabet) : c.utf8Size = 1 := by
  have all_single :
      (lowercase ++ uppercase ++ digits ++ special).all (·.utf8Size == 1) = true := by decide
  exact beq_iff_eq.mp (List.all_eq_true.mp all_single c ((alphabet_sublist classes).subset h))

theorem utf8Len_of_single {cs : List Char} (single : ∀ c ∈ cs, c.utf8Size = 1) :
    String.utf8Len cs = cs.length := by
  induction cs with
  | nil => rfl
  | cons c cs ih =>
    obtain ⟨hc, hcs⟩ := List.forall_mem_cons.mp single
    rw [String.utf8Len_cons, hc, ih hcs, List.length_cons]

/-- A text has one byte for each character. -/
theorem utf8ByteSize_synthesize (h : Ends (synthesize classes length) answers text) :
    text.utf8ByteSize = length := by
  have single : ∀ c ∈ text.toList, c.utf8Size = 1 := by
    intro c hc
    exact utf8Size_of_mem_alphabet (mem_alphabet_of_mem_synthesize h hc)
  rw [← String.ofList_toList (s := text), String.utf8ByteSize_ofList, utf8Len_of_single single,
    length_synthesize h]

end FakeData.Synthesis

namespace FakeData

open Synthesis

/-- A synthesized text of any length fits its plan: no insertion lies beyond the text so far, one
index below a positive bound is drawn for each character, and the text has exactly as many
characters as are asked for, each of a class in use. From three characters on every class in use
is there. -/
theorem synthesize_exact_length_with_classes {σ : Type} [IndexSource σ] (classes : CharClasses)
    (length : Nat) (source : σ) :
    let text := ((synthesize classes length).run source).1
    let asked := (synthesize classes length).bounds source
    Fits 0 (plan classes length) ∧
      asked.length = length ∧ (∀ bound ∈ asked, 0 < bound) ∧
      text.length = length ∧ text.utf8ByteSize = length ∧
      (∀ c ∈ text.toList, c ∈ lowercase ∨ (classes.uppercase ∧ c ∈ uppercase) ∨
        (classes.digits ∧ c ∈ digits) ∨ (classes.special ∧ c ∈ special)) ∧
      (3 ≤ length →
        (classes.uppercase → ∃ c ∈ text.toList, c ∈ uppercase) ∧
        (classes.digits → ∃ c ∈ text.toList, c ∈ digits) ∧
        (classes.special → ∃ c ∈ text.toList, c ∈ special)) := by
  intro text asked
  have h := Draw.ends_run (synthesize classes length) source
  refine ⟨fits_plan, ?_, Draw.bounds_pos _ _, ?_, utf8ByteSize_synthesize h, ?_, ?_⟩
  · rw [Draw.length_bounds, length_answers_synthesize h]
  · rw [← String.length_toList]
    exact length_synthesize h
  · intro c hc
    exact mem_alphabet.mp (mem_alphabet_of_mem_synthesize h hc)
  · intro h3
    refine ⟨?_, ?_, ?_⟩
    · exact exists_mem_synthesize h h3 .uppercase (by decide)
    · exact exists_mem_synthesize h h3 .digits (by decide)
    · exact exists_mem_synthesize h h3 .special (by decide)

end FakeData
