import FakeData.Proofs.Path
import FakeData.Request
import Mathlib.Tactic.SplitIfs

/-!
# Accepted requests

What every accepted request has: a context that is one component of a path, and a path.
-/
namespace FakeData.Request

open Text (pieces trimBlanks)

theorem ofParts_eq_ok_iff {context expression rest : List Char} {request : Request} :
    ofParts context expression rest = .ok request ↔
      context ≠ [] ∧ isForbiddenContext context = false ∧ expression ≠ [] ∧
        trimBlanks rest = [] ∧
        request = ⟨.ofList context, (pieces '|' expression).map .ofList⟩ := by
  constructor
  · intro h
    rw [ofParts] at h
    split_ifs at h with hempty hforbidden hexpression hrest
    cases h
    exact ⟨hempty, Bool.eq_false_iff.mpr hforbidden, hexpression, Decidable.not_not.mp hrest, rfl⟩
  · rintro ⟨hempty, hallowed, hexpression, hrest, rfl⟩
    simp [ofParts, hempty, hallowed, hexpression, hrest]

theorem parse_eq_ok_iff_read {text : String} {request : Request} :
    parse text = .ok request ↔ read text.toList = .ok request := by
  rw [parse]
  cases read text.toList <;> simp [Except.mapError]

/-- A text that is refused is reported as it stands. -/
theorem parse_eq_error_iff_read {text : String} {malformed : MalformedRequest} :
    parse text = .error malformed ↔
      malformed.request = text ∧ read text.toList = .error malformed.fault := by
  obtain ⟨request, fault⟩ := malformed
  rw [parse]
  cases read text.toList <;> simp [Except.mapError, eq_comm]

/-- An accepted text has parts that are accepted. -/
theorem exists_ofParts_of_parse {text : String} {request : Request}
    (h : parse text = .ok request) :
    ∃ context expression rest, ofParts context expression rest = .ok request := by
  rw [parse_eq_ok_iff_read, read] at h
  split at h
  · cases h
  split at h
  · cases h
  · exact ⟨_, _, _, h⟩

/-- A request names at least one path. -/
theorem paths_ne_nil {text : String} {request : Request} (h : parse text = .ok request) :
    request.paths ≠ [] := by
  obtain ⟨context, expression, rest, hparts⟩ := exists_ofParts_of_parse h
  obtain ⟨-, -, -, -, rfl⟩ := ofParts_eq_ok_iff.mp hparts
  simpa using Text.pieces_ne_nil '|' expression

/-- That a request names no path is never what is wrong with its text. -/
theorem fault_ne_noPaths {text : String} {malformed : MalformedRequest}
    (h : parse text = .error malformed) : malformed.fault ≠ .noPaths := by
  obtain ⟨-, hread⟩ := parse_eq_error_iff_read.mp h
  intro hfault
  rw [hfault, read] at hread
  split at hread
  · cases hread
  split at hread
  · cases hread
  · rw [ofParts] at hread
    split_ifs at hread <;> cases hread

/-- A context leads neither up nor to the root of the file system. -/
theorem isComponent_of_parse {text : String} {request : Request} (h : parse text = .ok request) :
    Path.IsComponent request.context := by
  obtain ⟨context, expression, rest, hparts⟩ := exists_ofParts_of_parse h
  obtain ⟨hne, hallowed, -, -, rfl⟩ := ofParts_eq_ok_iff.mp hparts
  simp only [isForbiddenContext, Bool.or_eq_false_iff, List.contains_eq_mem,
    decide_eq_false_iff_not] at hallowed
  obtain ⟨⟨hslash, -⟩, hdots⟩ := hallowed
  refine ⟨?_, ?_, ?_⟩
  · simpa using hne
  · simpa using hslash
  · intro he
    have hlist : context = ['.', '.'] := by
      simpa using congrArg String.toList he
    rw [hlist] at hdots
    cases hdots

end FakeData.Request
