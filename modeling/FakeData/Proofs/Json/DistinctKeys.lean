import FakeData.Json.Reader
import FakeData.Proofs.Except
import Mathlib.Data.List.Nodup
import Mathlib.Tactic.SplitIfs

/-!
# Distinct keys

The two key rules of the reader side by side. Reading under `distinct` gives what reading under
`any` gives, exactly where no object of the document repeats a key.
-/
namespace FakeData.Json

/-- No object in the document writes a key twice, at any depth. -/
inductive DistinctKeys : Json → Prop where
  | null : DistinctKeys .null
  | bool (value : Bool) : DistinctKeys (.bool value)
  | number (value : JsonNumber) : DistinctKeys (.number value)
  | string (value : String) : DistinctKeys (.string value)
  | array {items : List Json} (inside : ∀ item ∈ items, DistinctKeys item) :
      DistinctKeys (.array items)
  | object {members : List (String × Json)} (keys : (members.map Prod.fst).Nodup)
      (inside : ∀ member ∈ members, DistinctKeys member.2) : DistinctKeys (.object members)

theorem distinctKeys_array {items : List Json} :
    DistinctKeys (.array items) ↔ ∀ item ∈ items, DistinctKeys item := by
  constructor
  · rintro ⟨⟩
    assumption
  · exact .array

theorem distinctKeys_object {members : List (String × Json)} :
    DistinctKeys (.object members) ↔
      (members.map Prod.fst).Nodup ∧ ∀ member ∈ members, DistinctKeys member.2 := by
  constructor
  · rintro ⟨⟩
    exact ⟨‹_›, ‹_›⟩
  · rintro ⟨keys, inside⟩
    exact .object keys inside

/-! ## Successful readings -/

variable {rule : KeyRule} {item value : Reader FaultCause Json} {fuel : Nat} {first : Bool}
  {s rest : List Char} {written : List String}

/-- A list ends, or it goes on with an item. -/
theorem readItems_eq_ok_iff {values : List Json} :
    readItems item (fuel + 1) first s = .ok (values, rest) ↔
      (Enclosure.list.next first s = .ok (false, rest) ∧ values = []) ∨
      ∃ s₁ v s₂ others, Enclosure.list.next first s = .ok (true, s₁) ∧ item s₁ = .ok (v, s₂) ∧
        readItems item fuel false s₂ = .ok (others, rest) ∧ values = v :: others := by
  constructor
  · intro h
    rw [readItems] at h
    cases hnext : Enclosure.list.next first s with
    | error fault => simp [hnext] at h
    | ok part =>
      obtain ⟨_ | _, s₁⟩ := part
      · simp only [hnext, Except.ok.injEq, Prod.mk.injEq] at h
        obtain ⟨rfl, rfl⟩ := h
        exact .inl ⟨rfl, rfl⟩
      · cases hitem : item s₁ with
        | error fault => simp [hnext, hitem] at h
        | ok got =>
          cases hothers : readItems item fuel false got.2 with
          | error fault => simp [hnext, hitem, hothers] at h
          | ok others =>
            simp only [hnext, hitem, hothers, Except.ok.injEq, Prod.mk.injEq] at h
            obtain ⟨rfl, rfl⟩ := h
            exact .inr ⟨s₁, got.1, got.2, others.1, rfl, hitem, hothers, rfl⟩
  · rintro (⟨hnext, rfl⟩ | ⟨s₁, v, s₂, others, hnext, hitem, hothers, rfl⟩)
    · simp only [readItems, hnext]
    · simp only [readItems, hnext, hitem, hothers]

/-- An object ends, or it goes on with a member whose key is not refused. -/
theorem readMembers_eq_ok_iff {members : List (String × Json)} :
    readMembers rule value (fuel + 1) written s = .ok (members, rest) ↔
      (Enclosure.object.next written.isEmpty s = .ok (false, rest) ∧ members = []) ∨
      ∃ s₁ key s₂ v s₃ others, Enclosure.object.next written.isEmpty s = .ok (true, s₁) ∧
        readKey s₁ = .ok (key, s₂) ∧ value s₂ = .ok (v, s₃) ∧ rule.refuses written key = false ∧
        readMembers rule value fuel (key :: written) s₃ = .ok (others, rest) ∧
        members = (key, v) :: others := by
  constructor
  · intro h
    rw [readMembers] at h
    cases hnext : Enclosure.object.next written.isEmpty s with
    | error fault => simp [hnext] at h
    | ok part =>
      obtain ⟨_ | _, s₁⟩ := part
      · simp only [hnext, Except.ok.injEq, Prod.mk.injEq] at h
        obtain ⟨rfl, rfl⟩ := h
        exact .inl ⟨rfl, rfl⟩
      · cases hkey : readKey s₁ with
        | error fault => simp [hnext, hkey] at h
        | ok named =>
          cases hvalue : value named.2 with
          | error fault => simp [hnext, hkey, hvalue] at h
          | ok got =>
            cases hrule : rule.refuses written named.1 with
            | true => simp [hnext, hkey, hvalue, hrule] at h
            | false =>
              cases hothers : readMembers rule value fuel (named.1 :: written) got.2 with
              | error fault => simp [hnext, hkey, hvalue, hrule, hothers] at h
              | ok others =>
                simp only [hnext, hkey, hvalue, hrule, hothers, Bool.false_eq_true, if_false,
                  Except.ok.injEq, Prod.mk.injEq] at h
                obtain ⟨rfl, rfl⟩ := h
                exact .inr ⟨s₁, named.1, named.2, got.1, got.2, others.1, rfl, hkey, hvalue, hrule,
                  hothers, rfl⟩
  · rintro (⟨hnext, rfl⟩ | ⟨s₁, key, s₂, v, s₃, others, hnext, hkey, hvalue, hrule, hothers, rfl⟩)
    · simp only [readMembers, hnext]
    · simp only [readMembers, hnext, hkey, hvalue, hrule, hothers, Bool.false_eq_true, if_false]

/-! ## The two rules -/

/-- The strict reader gives what the lenient one gives, where the value has distinct keys. -/
def Agrees (strict lenient : Reader FaultCause Json) : Prop :=
  ∀ s v rest, strict s = .ok (v, rest) ↔ lenient s = .ok (v, rest) ∧ DistinctKeys v

variable {strict lenient : Reader FaultCause Json}

theorem readItems_distinct (h : Agrees strict lenient) {values : List Json} :
    readItems strict fuel first s = .ok (values, rest) ↔
      readItems lenient fuel first s = .ok (values, rest) ∧ ∀ v ∈ values, DistinctKeys v := by
  induction fuel generalizing first s values with
  | zero => simp [readItems]
  | succ fuel ih =>
    rw [readItems_eq_ok_iff, readItems_eq_ok_iff]
    constructor
    · rintro (⟨hnext, rfl⟩ | ⟨s₁, v, s₂, others, hnext, hitem, hothers, rfl⟩)
      · exact ⟨.inl ⟨hnext, rfl⟩, by simp⟩
      · obtain ⟨hitem, hv⟩ := (h _ _ _).mp hitem
        obtain ⟨hothers, hall⟩ := ih.mp hothers
        exact ⟨.inr ⟨s₁, v, s₂, others, hnext, hitem, hothers, rfl⟩,
          List.forall_mem_cons.mpr ⟨hv, hall⟩⟩
    · rintro ⟨⟨hnext, rfl⟩ | ⟨s₁, v, s₂, others, hnext, hitem, hothers, rfl⟩, hall⟩
      · exact .inl ⟨hnext, rfl⟩
      · obtain ⟨hv, hall⟩ := List.forall_mem_cons.mp hall
        exact .inr ⟨s₁, v, s₂, others, hnext, (h _ _ _).mpr ⟨hitem, hv⟩, ih.mpr ⟨hothers, hall⟩,
          rfl⟩

/-- The keys of the members are new, to each other and to those written before. -/
theorem readMembers_distinct (h : Agrees strict lenient) {members : List (String × Json)} :
    readMembers .distinct strict fuel written s = .ok (members, rest) ↔
      readMembers .any lenient fuel written s = .ok (members, rest) ∧
        (members.map Prod.fst).Nodup ∧ (∀ key ∈ members.map Prod.fst, key ∉ written) ∧
        ∀ member ∈ members, DistinctKeys member.2 := by
  induction fuel generalizing written s members with
  | zero => simp [readMembers]
  | succ fuel ih =>
    rw [readMembers_eq_ok_iff, readMembers_eq_ok_iff]
    constructor
    · rintro (⟨hnext, rfl⟩ | ⟨s₁, key, s₂, v, s₃, others, hnext, hkey, hvalue, hrule, hothers, rfl⟩)
      · exact ⟨.inl ⟨hnext, rfl⟩, by simp⟩
      · obtain ⟨hvalue, hv⟩ := (h _ _ _).mp hvalue
        obtain ⟨hothers, hnodup, hnew, hall⟩ := ih.mp hothers
        have hwritten : key ∉ written := by simpa [KeyRule.refuses] using hrule
        refine ⟨.inr ⟨s₁, key, s₂, v, s₃, others, hnext, hkey, hvalue, rfl, hothers, rfl⟩, ?_, ?_,
          List.forall_mem_cons.mpr ⟨hv, hall⟩⟩
        · rw [List.map_cons, List.nodup_cons]
          exact ⟨fun again => hnew key again List.mem_cons_self, hnodup⟩
        · rw [List.map_cons, List.forall_mem_cons]
          refine ⟨hwritten, ?_⟩
          intro other hother again
          exact hnew other hother (List.mem_cons_of_mem _ again)
    · rintro ⟨⟨hnext, rfl⟩ |
        ⟨s₁, key, s₂, v, s₃, others, hnext, hkey, hvalue, -, hothers, rfl⟩, hnodup, hnew, hall⟩
      · exact .inl ⟨hnext, rfl⟩
      · rw [List.map_cons, List.nodup_cons] at hnodup
        rw [List.map_cons, List.forall_mem_cons] at hnew
        obtain ⟨hv, hall⟩ := List.forall_mem_cons.mp hall
        have hrule : KeyRule.distinct.refuses written key = false := by
          simpa [KeyRule.refuses] using hnew.1
        refine .inr ⟨s₁, key, s₂, v, s₃, others, hnext, hkey, (h _ _ _).mpr ⟨hvalue, hv⟩, hrule,
          ih.mpr ⟨hothers, hnodup.2, ?_, hall⟩, rfl⟩
        intro other hother again
        rcases List.mem_cons.mp again with rfl | again
        · exact hnodup.1 hother
        · exact hnew.2 other hother again

/-- A value that holds no others is read the same way under both rules. -/
theorem scalar_distinct {α : Type} {got : Except Fault α} {f : α → Json × List Char} {v : Json}
    (distinct : ∀ a, DistinctKeys (f a).1) :
    got.map f = .ok (v, rest) ↔ got.map f = .ok (v, rest) ∧ DistinctKeys v := by
  refine ⟨fun h => ⟨h, ?_⟩, And.left⟩
  obtain ⟨a, -, ha⟩ := map_eq_ok_iff.mp h
  have hv := distinct a
  rwa [ha] at hv

theorem valueWith_distinct {outer inner : Option (Reader FaultCause Json)}
    (h : Option.Rel Agrees outer inner) :
    Agrees (valueWith .distinct outer) (valueWith .any inner) := by
  intro s v rest
  simp only [valueWith]
  cases skipSpace s with
  | nil => simp
  | cons c s =>
    dsimp only
    split_ifs
    · exact scalar_distinct fun _ => .null
    · exact scalar_distinct fun _ => .bool true
    · exact scalar_distinct fun _ => .bool false
    · exact scalar_distinct fun _ => .string _
    · exact scalar_distinct fun _ => .number _
    · exact scalar_distinct fun _ => .number _
    · cases h with
      | none => simp
      | some h =>
        simp only [map_eq_ok_iff, Prod.exists, Prod.mk.injEq]
        constructor
        · rintro ⟨items, _, hitems, rfl, rfl⟩
          obtain ⟨hitems, hall⟩ := (readItems_distinct h).mp hitems
          exact ⟨⟨items, _, hitems, rfl, rfl⟩, .array hall⟩
        · rintro ⟨⟨items, _, hitems, rfl, rfl⟩, hall⟩
          have hread := (readItems_distinct h).mpr ⟨hitems, distinctKeys_array.mp hall⟩
          exact ⟨items, _, hread, rfl, rfl⟩
    · cases h with
      | none => simp
      | some h =>
        simp only [map_eq_ok_iff, Prod.exists, Prod.mk.injEq]
        constructor
        · rintro ⟨members, _, hmembers, rfl, rfl⟩
          obtain ⟨hmembers, hnodup, -, hall⟩ := (readMembers_distinct h).mp hmembers
          exact ⟨⟨members, _, hmembers, rfl, rfl⟩, .object hnodup hall⟩
        · rintro ⟨⟨members, _, hmembers, rfl, rfl⟩, hall⟩
          obtain ⟨hnodup, hall⟩ := distinctKeys_object.mp hall
          have hread := (readMembers_distinct h).mpr ⟨hmembers, hnodup, by simp, hall⟩
          exact ⟨members, _, hread, rfl, rfl⟩
    · simp

theorem readValue_distinct (depth : Nat) :
    Agrees (readValue .distinct depth) (readValue .any depth) := by
  induction depth with
  | zero => exact valueWith_distinct .none
  | succ depth ih => exact valueWith_distinct (.some ih)

theorem read_eq_ok_iff {rule : KeyRule} {text : String} {document : Json} :
    read rule text = .ok document ↔
      ∃ rest, readValue rule maxDepth text.toList = .ok (document, rest) ∧ skipSpace rest = [] := by
  rw [read]
  cases readValue rule maxDepth text.toList with
  | error fault => simp
  | ok got =>
    obtain ⟨value, rest⟩ := got
    cases hrest : skipSpace rest with
    | nil => simp [hrest]
    | cons c s => simp [hrest]

/-- A text is accepted exactly when it is a document at all and no object in it repeats a key. -/
theorem readDistinct_eq_ok_iff {text : String} {document : Json} :
    readDistinct text = .ok document ↔ read .any text = .ok document ∧ DistinctKeys document := by
  rw [readDistinct, read_eq_ok_iff, read_eq_ok_iff]
  constructor
  · rintro ⟨rest, hvalue, hrest⟩
    obtain ⟨hvalue, distinct⟩ := (readValue_distinct maxDepth _ _ _).mp hvalue
    exact ⟨⟨rest, hvalue, hrest⟩, distinct⟩
  · rintro ⟨⟨rest, hvalue, hrest⟩, distinct⟩
    exact ⟨rest, (readValue_distinct maxDepth _ _ _).mpr ⟨hvalue, distinct⟩, hrest⟩

end FakeData.Json
