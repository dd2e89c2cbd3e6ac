import FakeData.Proofs.Request.Grammar

/-!
# Written requests

Writing a request and reading it again gives the request back exactly when it is well formed.
Every accepted text gives a well-formed request, so what is written of it is its canonical text.
-/
namespace FakeData.Request

open Text (isBlank split trim trimBlanks)

/-- A request that a text can stand for. -/
structure WellFormed (request : Request) : Prop where
  named : request.context ≠ ""
  trimmed : trim request.context = request.context
  no_open : '(' ∉ request.context.toList
  allowed : AllowedContext request.context
  paths_ne_nil : request.paths ≠ []
  paths_ne_blank : request.paths ≠ [""]
  no_bar : ∀ path ∈ request.paths, '|' ∉ path.toList
  no_close : ∀ path ∈ request.paths, ')' ∉ path.toList

variable {text inside : String} {request : Request} {paths : List String}

/-! ## What is read -/

/-- Trimming brings in no character. -/
theorem notMem_trim {c : Char} (h : c ∉ text.toList) : c ∉ (trim text).toList := by
  intro hc
  rw [Text.toList_trim] at hc
  exact h ((Text.trimBlanks_infix text.toList).subset hc)

theorem CutAtBars.ne_nil (h : CutAtBars inside paths) : paths ≠ [] := by
  have hcount := h.count
  exact List.ne_nil_of_length_pos (by omega)

theorem CutAtBars.notMem {c : Char} (h : CutAtBars inside paths) (hc : c ∉ inside.toList) :
    ∀ path ∈ paths, c ∉ path.toList := by
  intro path hpath hmem
  by_cases hbar : c = '|'
  · subst hbar
    exact h.no_bar path hpath hmem
  · rw [← h.joined] at hc
    exact hc ((Text.mem_intercalate_iff hbar).mpr ⟨path, hpath, hmem⟩)

theorem wellFormed_of_parse (h : parse text = .ok request) : WellFormed request := by
  obtain ⟨before, inside, after, divides, named, allowed, some_path, -, hcontext, hpaths⟩ :=
    parse_eq_ok_iff.mp h
  refine ⟨?_, ?_, ?_, ?_, hpaths.ne_nil, ?_, hpaths.no_bar, hpaths.notMem divides.no_close⟩
  · rwa [hcontext]
  · rw [hcontext, Text.trim_trim]
  · rw [hcontext]
    exact notMem_trim divides.no_open
  · rwa [hcontext]
  · intro hblank
    have hjoined := hpaths.joined
    rw [hblank, String.intercalate_singleton] at hjoined
    exact some_path hjoined.symm

/-! ## What is written -/

namespace WellFormed

theorem cutAtBars (h : WellFormed request) :
    CutAtBars ("|".intercalate request.paths) request.paths :=
  cutAtBars_iff.mpr (Text.split_intercalate h.paths_ne_nil h.no_bar).symm

/-- Only one empty path is written as nothing. -/
theorem intercalate_ne_empty (h : WellFormed request) : "|".intercalate request.paths ≠ "" := by
  intro hempty
  have hpaths := cutAtBars_iff.mp h.cutAtBars
  rw [hempty] at hpaths
  exact h.paths_ne_blank hpaths

/-- The parentheses that are written are the first of their kinds. -/
theorem divides_display (h : WellFormed request) :
    Divides (display request) request.context ("|".intercalate request.paths) "" := by
  refine ⟨?_, h.no_open, ?_⟩
  · rw [display, String.append_empty]
  · have hother : ')' ≠ '|' := by decide
    intro hclose
    obtain ⟨path, hpath, hmem⟩ := (Text.mem_intercalate_iff hother).mp hclose
    exact h.no_close path hpath hmem

theorem parse_display (h : WellFormed request) : parse (display request) = .ok request := by
  refine parse_eq_ok_iff.mpr
    ⟨_, _, _, h.divides_display, ?_, ?_, h.intercalate_ne_empty, ?_, ?_, h.cutAtBars⟩
  · rw [h.trimmed]
    exact h.named
  · rw [h.trimmed]
    exact h.allowed
  · simp
  · exact h.trimmed.symm

end WellFormed

/-- Exactly the well-formed requests are read back from what is written of them. All requests that
are read are well formed, so accepted texts stand for one request exactly when the same is written
of what they stand for. -/
theorem parse_display_canonical :
    (∀ request, parse (display request) = .ok request ↔ WellFormed request) ∧
      (∀ text request, parse text = .ok request →
        WellFormed request ∧ parse (display request) = .ok request) ∧
      ∀ text other request otherRequest, parse text = .ok request →
        parse other = .ok otherRequest →
        (parse text = parse other ↔ display request = display otherRequest) := by
  refine ⟨fun request => ⟨wellFormed_of_parse, WellFormed.parse_display⟩, ?_, ?_⟩
  · intro text request h
    have wellFormed := wellFormed_of_parse h
    exact ⟨wellFormed, wellFormed.parse_display⟩
  · intro text other request otherRequest h hother
    constructor
    · intro hsame
      rw [h, hother, Except.ok.injEq] at hsame
      rw [hsame]
    · intro hdisplay
      have hrequest := (wellFormed_of_parse h).parse_display
      have hotherRequest := (wellFormed_of_parse hother).parse_display
      rw [h, hother, ← hrequest, ← hotherRequest, hdisplay]

/-- Empty paths are kept, but a single one is not written. -/
example : parse (display ⟨"name", ["", ""]⟩) = .ok ⟨"name", ["", ""]⟩ ∧
    parse (display ⟨"name", [""]⟩) = .error ⟨"name()", .emptyExpression⟩ := by decide

end FakeData.Request
