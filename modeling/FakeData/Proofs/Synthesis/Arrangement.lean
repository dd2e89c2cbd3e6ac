import FakeData.Proofs.Draw.Script
import FakeData.Proofs.Synthesis.Schedule
import Mathlib.Data.List.FinRange
import Mathlib.Data.List.NodupEquivFin

/-!
# Arrangements

Each draw has one place in the text, whatever character it picks. The places are a permutation of
the draws.
-/
namespace FakeData.Synthesis

open Draw (Answer Ends)

variable {classes : CharClasses} {length : Nat}

/-! ## Places of draws -/

/-- The draws in the order in which their characters stand in the text. -/
def order (classes : CharClasses) (length : Nat) : List (Fin length) :=
  arrange (plan classes length) (List.finRange length) []

theorem order_perm : (order classes length).Perm (List.finRange length) := by
  have h : (plan classes length).length = (List.finRange length).length := by
    rw [length_plan, List.length_finRange]
  exact arrange_perm fits_plan h

theorem length_order : (order classes length).length = length := by
  rw [order_perm.length_eq, List.length_finRange]

def drawAt (classes : CharClasses) (length : Nat) : Equiv.Perm (Fin length) :=
  (finCongr length_order.symm).trans
    (List.Nodup.getEquivOfForallMemList (order classes length)
      (order_perm.nodup_iff.mpr (List.nodup_finRange length))
      fun k => order_perm.mem_iff.mpr (List.mem_finRange k))

theorem getElem?_order (p : Fin length) :
    (order classes length)[p.val]? = some (drawAt classes length p) := by
  have inside : p.val < (order classes length).length := by
    rw [length_order]
    exact p.isLt
  rw [List.getElem?_eq_getElem inside]
  rfl

/-! ## Draws of a text -/

/-- A number below each bound that a text asks for. -/
abbrev Draws (classes : CharClasses) (length : Nat) : Type :=
  (k : Fin length) → Fin (boundAt classes length k)

namespace Draws

def character (draws : Draws classes length) (k : Fin length) : Char :=
  ((scheduled classes length k).characters classes).get (draws k)

def answers (draws : Draws classes length) : List Answer :=
  List.ofFn fun k => ⟨boundAt classes length k, draws k⟩

def text (draws : Draws classes length) : String :=
  ((synthesize classes length).run (Script.ofAnswers draws.answers)).1

end Draws

theorem Pick.exists_eq_of_pool {pick : Pick classes} {pool : Pool} (h : pick.pool = pool) :
    ∃ i : Fin (pool.characters classes).length, pick = ⟨pool, i⟩ := by
  subst h
  exact ⟨pick.index, rfl⟩

namespace Draws

def picks (draws : Draws classes length) : List (Pick classes) :=
  List.ofFn fun k => ⟨scheduled classes length k, draws k⟩

theorem pools_picks (draws : Draws classes length) :
    draws.picks.map Pick.pool = (plan classes length).map Slot.pool := by
  rw [picks, List.map_ofFn, plan_eq_slots, List.map_map, List.ofFn_eq_map,
    ← List.map_coe_finRange_eq_range, List.map_map]
  rfl

theorem answers_picks (draws : Draws classes length) :
    draws.picks.map Pick.answer = draws.answers := List.map_ofFn

theorem characters_picks (draws : Draws classes length) :
    draws.picks.map Pick.character = (List.finRange length).map draws.character := by
  rw [picks, List.map_ofFn, List.ofFn_eq_map]
  rfl

/-- Picks from the pools of the plan are draws. -/
theorem exists_eq_picks {picks : List (Pick classes)}
    (h : picks.map Pick.pool = (plan classes length).map Slot.pool) :
    ∃ draws : Draws classes length, picks = draws.picks := by
  have hlength : picks.length = length := by
    have hlengths := congrArg List.length h
    rwa [List.length_map, List.length_map, length_plan] at hlengths
  have hpick (k : Fin length) : ∃ i : Fin (boundAt classes length k),
      picks[k.val]? = some ⟨scheduled classes length k, i⟩ := by
    have inside : k.val < picks.length := by rw [hlength]; exact k.isLt
    have hpool : picks[k.val].pool = scheduled classes length k := by
      have hget := congrArg (·[k.val]?) h
      simpa [plan_eq_slots, List.getElem?_eq_getElem inside, k.isLt, slotAt] using hget
    obtain ⟨i, hi⟩ := Pick.exists_eq_of_pool hpool
    exact ⟨i, by rw [List.getElem?_eq_getElem inside, hi]⟩
  choose draws hdraws using hpick
  refine ⟨draws, List.ext_getElem? fun k => ?_⟩
  rw [Draws.picks, List.getElem?_ofFn]
  split
  · next inside => exact hdraws ⟨k, inside⟩
  · next outside => exact List.getElem?_eq_none (by omega)

end Draws

/-- A text is an outcome of its draws, and of nothing else. -/
theorem ends_synthesize_iff {answers : List Answer} {text : String} :
    Ends (synthesize classes length) answers text ↔
      ∃ draws : Draws classes length, answers = draws.answers ∧
        text = .ofList ((order classes length).map draws.character) := by
  have harrange (draws : Draws classes length) :
      arrange (plan classes length) (draws.picks.map Pick.character) [] =
        (order classes length).map draws.character := by
    rw [draws.characters_picks, order, arrange_map, List.map_nil]
  rw [ends_synthesize_iff_picks]
  constructor
  · rintro ⟨picks, hpools, rfl, rfl⟩
    obtain ⟨draws, rfl⟩ := Draws.exists_eq_picks hpools
    exact ⟨draws, draws.answers_picks, by rw [harrange]⟩
  · rintro ⟨draws, rfl, rfl⟩
    exact ⟨draws.picks, draws.pools_picks, draws.answers_picks.symm, by rw [harrange]⟩

namespace Draws

theorem text_eq (draws : Draws classes length) :
    draws.text = .ofList ((order classes length).map draws.character) :=
  (ends_synthesize_iff.mpr ⟨draws, rfl, rfl⟩).run_script

theorem ends (draws : Draws classes length) :
    Ends (synthesize classes length) draws.answers draws.text :=
  ends_synthesize_iff.mpr ⟨draws, rfl, draws.text_eq⟩

/-- At each place stands the character of one draw. -/
theorem getElem?_text (draws : Draws classes length) (p : Fin length) :
    draws.text.toList[p.val]? = some (draws.character (drawAt classes length p)) := by
  rw [text_eq, String.toList_ofList, List.getElem?_map, getElem?_order, Option.map_some]

theorem length_text (draws : Draws classes length) : draws.text.toList.length = length := by
  rw [text_eq, String.toList_ofList, List.length_map, length_order]

end Draws

/-- Every outcome is that of its draws. -/
theorem exists_draws_of_ends {answers : List Answer} {text : String}
    (h : Ends (synthesize classes length) answers text) :
    ∃ draws : Draws classes length, answers = draws.answers ∧ text = draws.text := by
  obtain ⟨draws, hanswers, htext⟩ := ends_synthesize_iff.mp h
  exact ⟨draws, hanswers, htext.trans draws.text_eq.symm⟩

end FakeData.Synthesis
