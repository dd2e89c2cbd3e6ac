import FakeData.Json.Pointer
import FakeData.Proofs.Json.DistinctKeys
import FakeData.Proofs.Json.Token
import FakeData.Proofs.Text

/-!
# Parts of a document

The values inside a document, at any depth. A pointer leads to a part, and what spells a part is
found in one piece where the document is spelled.
-/
namespace FakeData.Json

/-- The part stands in the document, as all of it or inside its lists and objects. -/
inductive PartOf (part : Json) : Json → Prop where
  | self : PartOf part part
  | item {item : Json} {items : List Json} (mem : item ∈ items) (inside : PartOf part item) :
      PartOf part (.array items)
  | member {member : String × Json} {members : List (String × Json)} (mem : member ∈ members)
      (inside : PartOf part member.2) : PartOf part (.object members)

variable {part document : Json}

theorem PartOf.trans {inner : Json} (h : PartOf inner part) (hpart : PartOf part document) :
    PartOf inner document := by
  induction hpart with
  | self => exact h
  | item mem _ ih => exact .item mem ih
  | member mem _ ih => exact .member mem ih

/-- Distinct keys are a matter of the objects in a document, wherever they are. -/
theorem DistinctKeys.nodup_of_partOf {members : List (String × Json)}
    (h : DistinctKeys document) (inside : PartOf (.object members) document) :
    (members.map Prod.fst).Nodup := by
  induction inside with
  | self => exact (distinctKeys_object.mp h).1
  | item mem _ ih => exact ih (distinctKeys_array.mp h _ mem)
  | member mem _ ih => exact ih ((distinctKeys_object.mp h).2 _ mem)

theorem distinctKeys_of_parts (document : Json)
    (h : ∀ members, PartOf (.object members) document → (members.map Prod.fst).Nodup) :
    DistinctKeys document := by
  match document with
  | .null => exact .null
  | .bool value => exact .bool value
  | .number value => exact .number value
  | .string text => exact .string text
  | .array items =>
    refine .array ?_
    intro item mem
    have hsize := List.sizeOf_lt_of_mem mem
    exact distinctKeys_of_parts item fun members inside => h members (.item mem inside)
  | .object members =>
    refine .object (h members .self) ?_
    intro member mem
    have hsize := List.sizeOf_lt_of_mem mem
    exact distinctKeys_of_parts member.2 fun others inside => h others (.member mem inside)
termination_by sizeOf document
decreasing_by
  · simp only [Json.array.sizeOf_spec]
    omega
  · obtain ⟨key, value⟩ := member
    simp only [Json.object.sizeOf_spec, Prod.mk.sizeOf_spec] at hsize ⊢
    omega

theorem distinctKeys_iff_parts : DistinctKeys document ↔
    ∀ members, PartOf (.object members) document → (members.map Prod.fst).Nodup :=
  ⟨fun h _ inside => h.nodup_of_partOf inside, distinctKeys_of_parts document⟩

/-! ## Where a part is spelled -/

theorem PartOf.isInfix_tokens (h : PartOf part document) : part.tokens <:+: document.tokens := by
  induction h with
  | self => exact List.infix_rfl
  | @item item items mem _ ih =>
    have hitem : item.tokens ∈ itemTokens items := by
      rw [itemTokens_eq_map]
      exact List.mem_map_of_mem mem
    have hpieces := Text.infix_intercalate_of_mem [.mark .comma] hitem
    rw [tokens]
    exact (ih.trans hpieces).trans ⟨[.mark .openList], [.mark .closeList], by simp⟩
  | @member member members mem _ ih =>
    have hmember : .scalar (.string member.1) :: .mark .colon :: member.2.tokens ∈
        memberTokens members := by
      rw [memberTokens_eq_map]
      exact List.mem_map_of_mem mem
    have hvalue : member.2.tokens <:+:
        Token.scalar (.string member.1) :: .mark .colon :: member.2.tokens :=
      (List.suffix_append [_, _] _).isInfix
    have hpieces := hvalue.trans (Text.infix_intercalate_of_mem [.mark .comma] hmember)
    rw [tokens]
    exact (ih.trans hpieces).trans ⟨[.mark .openObject], [.mark .closeObject], by simp⟩

/-! ## Pointers -/

namespace Pointer

theorem partOf_of_child? {segment : List Char} (h : child? segment document = some part) :
    PartOf part document := by
  cases document with
  | array items =>
    obtain ⟨i, -, hitem⟩ := Option.bind_eq_some_iff.mp h
    exact .item (List.mem_of_getElem? hitem) .self
  | object members =>
    obtain ⟨before, after, rfl, -⟩ := List.lookup_eq_some_iff.mp h
    have mem : (String.ofList segment, part) ∈
        before ++ (String.ofList segment, part) :: after := by simp
    exact .member mem .self
  | _ => cases h

theorem partOf_of_follow? {segments : List (List Char)}
    (h : follow? segments document = some part) : PartOf part document := by
  induction segments generalizing document with
  | nil =>
    cases h
    exact .self
  | cons segment segments ih =>
    obtain ⟨child, hchild, hpart⟩ := Option.bind_eq_some_iff.mp h
    exact (ih hpart).trans (partOf_of_child? hchild)

theorem partOf_of_lookup? {pointer : String} (h : lookup? pointer document = some part) :
    PartOf part document := by
  obtain ⟨segments, -, hpart⟩ := Option.bind_eq_some_iff.mp h
  exact partOf_of_follow? hpart

end Pointer

end FakeData.Json
