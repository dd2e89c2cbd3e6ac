import FakeData.Json.Pointer
import FakeData.Proofs.Text

/-!
# Pointers made of keys

Every key has a segment that names it, and the pointer made of these segments leads through the
members with these keys, whatever characters the keys have. What a pointer does not name it does
not see.
-/
namespace FakeData.Json

variable {c : Char} {key : List Char} {keys : List String} {document node : Json}

namespace Pointer

/-! ## Segments of keys -/

theorem unescape_cons (h : c ≠ '~') (rest : List Char) :
    unescape (c :: rest) = c :: unescape rest := by
  rw [unescape]
  · rintro cs rfl
    exact absurd rfl h
  · rintro cs rfl
    exact absurd rfl h

theorem unescape_escapeChar_append (c : Char) (rest : List Char) :
    unescape (escapeChar c ++ rest) = c :: unescape rest := by
  rw [escapeChar]
  split_ifs with htilde hslash
  · rw [htilde]
    rfl
  · rw [hslash]
    rfl
  · exact unescape_cons htilde rest

/-- A segment names the key that it was made of. -/
theorem unescape_escape (key : List Char) : unescape (escape key) = key := by
  induction key with
  | nil => rfl
  | cons c key ih =>
    rw [escape, List.flatMap_cons, unescape_escapeChar_append, ← escape, ih]

theorem slash_notMem_escape (key : List Char) : '/' ∉ escape key := by
  intro h
  obtain ⟨c, -, hc⟩ := List.mem_flatMap.mp h
  rw [escapeChar] at hc
  split_ifs at hc with htilde hslash
  · revert hc
    decide
  · revert hc
    decide
  · exact hslash (List.mem_singleton.mp hc).symm

/-- Besides the characters of the key a segment has those of the escapes. -/
theorem mem_escape {d : Char} (h : d ∈ escape key) : d ∈ key ∨ d ∈ ['~', '0', '1'] := by
  obtain ⟨c, hc, hd⟩ := List.mem_flatMap.mp h
  rw [escapeChar] at hd
  split_ifs at hd
  · exact .inr (List.Sublist.subset (by decide) hd)
  · exact .inr (List.Sublist.subset (by decide) hd)
  · exact .inl (List.mem_singleton.mp hd ▸ hc)

/-! ## Pointers of keys -/

theorem toList_ofKeys (keys : List String) :
    (ofKeys keys).toList = keys.flatMap fun key => '/' :: escape key.toList := by
  rw [ofKeys, String.toList_ofList]

/-- No slash of a key cuts its segment in two. -/
theorem pieces_escape (key : List Char) (keys : List String) :
    Text.pieces '/' (escape key ++ keys.flatMap fun key => '/' :: escape key.toList) =
      escape key :: keys.map fun key => escape key.toList := by
  induction keys generalizing key with
  | nil =>
    rw [List.flatMap_nil, List.append_nil, Text.pieces_of_notMem (slash_notMem_escape key),
      List.map_nil]
  | cons next keys ih =>
    rw [List.flatMap_cons, List.cons_append, Text.pieces_append_sep, ih,
      Text.pieces_of_notMem (slash_notMem_escape key), List.singleton_append, List.map_cons]

/-- The segments of the pointer are the keys again. -/
theorem segments?_ofKeys (keys : List String) :
    segments? (ofKeys keys) = some (keys.map String.toList) := by
  rw [segments?, toList_ofKeys]
  cases keys with
  | nil => rfl
  | cons key keys =>
    simp only [List.flatMap_cons, List.cons_append, pieces_escape, List.map_cons, List.map_map,
      Function.comp_def, unescape_escape]

end Pointer

/-- Through objects only, the members with these keys lead from a document to the node. -/
inductive LeadsTo : List String → Json → Json → Prop where
  | here (node : Json) : LeadsTo [] node node
  | member {key : String} {members : List (String × Json)} {child node : Json}
      {keys : List String} (found : members.lookup key = some child)
      (rest : LeadsTo keys child node) : LeadsTo (key :: keys) (.object members) node

namespace Pointer

theorem follow?_of_leadsTo (h : LeadsTo keys document node) :
    follow? (keys.map String.toList) document = some node := by
  induction h with
  | here node => rfl
  | member found rest ih =>
    rw [List.map_cons, follow?, child?, String.ofList_toList, found, Option.bind_some, ih]

/-- The pointer of some keys leads where the keys lead. -/
theorem lookup?_ofKeys (h : LeadsTo keys document node) :
    lookup? (ofKeys keys) document = some node := by
  rw [lookup?, segments?_ofKeys, Option.bind_some, follow?_of_leadsTo h]

end Pointer

/-- Keys lead to one node at most. -/
theorem LeadsTo.unique {other : Json} (h : LeadsTo keys document node)
    (h' : LeadsTo keys document other) : node = other :=
  Option.some.inj ((Pointer.lookup?_ofKeys h).symm.trans (Pointer.lookup?_ofKeys h'))

/-! ## What a pointer does not name -/

mutual

/-- The document without all members whose keys are unwanted, at any depth. -/
def without (unwanted : String → Bool) : Json → Json
  | .array items => .array (withoutItems unwanted items)
  | .object members => .object (withoutMembers unwanted members)
  | other => other

def withoutItems (unwanted : String → Bool) : List Json → List Json
  | [] => []
  | item :: items => without unwanted item :: withoutItems unwanted items

def withoutMembers (unwanted : String → Bool) : List (String × Json) → List (String × Json)
  | [] => []
  | (key, value) :: members =>
    if unwanted key then withoutMembers unwanted members
    else (key, without unwanted value) :: withoutMembers unwanted members

end

variable {unwanted : String → Bool}

theorem withoutItems_eq_map (items : List Json) :
    withoutItems unwanted items = items.map (without unwanted) := by
  induction items with
  | nil => rw [withoutItems, List.map_nil]
  | cons item items ih => rw [withoutItems, List.map_cons, ih]

theorem lookup_withoutMembers {key : String} (wanted : unwanted key = false)
    (members : List (String × Json)) :
    (withoutMembers unwanted members).lookup key =
      (members.lookup key).map (without unwanted) := by
  induction members with
  | nil => rw [withoutMembers]; rfl
  | cons member members ih =>
    obtain ⟨other, value⟩ := member
    rw [withoutMembers]
    by_cases same : key = other
    · subst same
      simp [wanted]
    · have hbeq : (key == other) = false := beq_eq_false_iff_ne.mpr same
      cases hother : unwanted other with
      | true => simp [hbeq, ih, List.lookup_cons]
      | false => simp [hbeq, ih, List.lookup_cons]

namespace Pointer

theorem child?_without {segment : List Char} (wanted : unwanted (.ofList segment) = false)
    (document : Json) :
    child? segment (document.without unwanted) =
      (child? segment document).map (without unwanted) := by
  cases document with
  | object members =>
    rw [without, child?, child?, lookup_withoutMembers wanted]
  | array items =>
    rw [without, child?, child?, withoutItems_eq_map]
    cases index? segment with
    | none => rfl
    | some i => simp
  | _ => simp [without, child?]

theorem follow?_without {segments : List (List Char)}
    (wanted : ∀ segment ∈ segments, unwanted (.ofList segment) = false) (document : Json) :
    follow? segments (document.without unwanted) =
      (follow? segments document).map (without unwanted) := by
  induction segments generalizing document with
  | nil => rfl
  | cons segment segments ih =>
    obtain ⟨hsegment, hsegments⟩ := List.forall_mem_cons.mp wanted
    rw [follow?, follow?, child?_without hsegment]
    cases child? segment document with
    | none => rfl
    | some child => exact ih hsegments child

/-- Undoing the escapes brings in no other characters. -/
theorem mem_unescape {segment : List Char} (h : c ∈ unescape segment) :
    c ∈ segment ∨ c = '/' ∨ c = '~' := by
  fun_induction unescape segment with
  | case1 => exact .inl h
  | case2 cs ih =>
    rcases List.mem_cons.mp h with rfl | h
    · exact .inr (.inl rfl)
    · exact (ih h).imp_left fun h => List.mem_cons_of_mem _ (List.mem_cons_of_mem _ h)
  | case3 cs ih =>
    rcases List.mem_cons.mp h with rfl | h
    · exact .inr (.inr rfl)
    · exact (ih h).imp_left fun h => List.mem_cons_of_mem _ (List.mem_cons_of_mem _ h)
  | case4 d cs _ _ ih =>
    rcases List.mem_cons.mp h with rfl | h
    · exact .inl List.mem_cons_self
    · exact (ih h).imp_left (List.mem_cons_of_mem d)

/-- The segments of a pointer have no other characters than the pointer, but for those which
escapes stand for. -/
theorem mem_of_mem_segments? {pointer : String} {segments : List (List Char)}
    (h : segments? pointer = some segments) {segment : List Char} (hsegment : segment ∈ segments)
    (hc : c ∈ segment) : c ∈ pointer.toList ∨ c = '/' ∨ c = '~' := by
  rw [segments?] at h
  split at h
  · cases h
    cases hsegment
  · rename_i cs hpointer
    cases h
    obtain ⟨piece, hpiece, rfl⟩ := List.mem_map.mp hsegment
    refine (mem_unescape hc).imp_left fun hc => ?_
    rw [hpointer]
    exact List.mem_cons_of_mem _ ((Text.infix_of_mem_pieces hpiece).subset hc)
  · cases h

/-- A pointer cannot lead to a member whose key has a character that the pointer has not: without
such members it finds the same. Slashes and tildes may be in a key, where escapes stand for them. -/
theorem lookup?_without {pointer : String}
    (unnamed : ∀ key, unwanted key = true →
      ∃ c ∈ key.toList, c ∉ pointer.toList ∧ c ≠ '/' ∧ c ≠ '~')
    (document : Json) :
    lookup? pointer (document.without unwanted) =
      (lookup? pointer document).map (without unwanted) := by
  rw [lookup?, lookup?]
  cases hsegments : segments? pointer with
  | none => rfl
  | some segments =>
    refine follow?_without ?_ document
    intro segment hsegment
    rw [← Bool.not_eq_true]
    intro hunwanted
    obtain ⟨c, hc, absent, hslash, htilde⟩ := unnamed _ hunwanted
    rw [String.toList_ofList] at hc
    rcases mem_of_mem_segments? hsegments hsegment hc with h | h | h
    · exact absent h
    · exact hslash h
    · exact htilde h

end Pointer

end FakeData.Json
