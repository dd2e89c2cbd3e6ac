import FakeData.Proofs.Json.DistinctKeys
import FakeData.Proofs.Json.Token

/-!
# What is read and what is spelled

A text is read as a document exactly when it spells that document and the document is not nested
too deeply. What a text spells is one document at most.
-/
namespace FakeData.Json

variable {s next rest : List Char} {ts : List Token} {token : Token} {v : Json} {limit fuel : Nat}
  {first : Bool} {close : Mark} {e : Enclosure} {written : List String}

/-! ## Lists and objects -/

def lead (first : Bool) : List Token := if first then [] else [.mark .comma]

/-- The tokens from the front of some parts up to the mark that closes them. -/
def remaining (close : Mark) (first : Bool) : List (List Token) → List Token
  | [] => [.mark close]
  | part :: parts => (lead first ++ part) ++ remaining close false parts

/-- From the front of all parts these are the parts with commas between them. -/
theorem intercalate_append_close (close : Mark) (parts : List (List Token)) :
    [.mark .comma].intercalate parts ++ [.mark close] = remaining close true parts := by
  induction parts with
  | nil => rfl
  | cons part parts ih =>
    cases parts with
    | nil => simp [remaining, lead]
    | cons other parts =>
      rw [List.intercalate_cons_cons, List.append_assoc, ih]
      simp [remaining, lead]

/-- There is a first token, and it does not close the list or object around it. -/
def IsPart (close : Mark) (part : List Token) : Prop :=
  ∃ token ts, part = token :: ts ∧ token ≠ .mark close

theorem IsPart.ne_nil {part : List Token} (h : IsPart close part) : part ≠ [] := by
  obtain ⟨token, ts, rfl, -⟩ := h
  exact List.cons_ne_nil token ts

/-- Where a part is found there is a character that does not close anything. -/
theorem IsPart.exists_skipSpace {part : List Token} (h : IsPart close part)
    (found : Lexes s part rest) : ∃ c after, skipSpace s = c :: after ∧ c ≠ close.char := by
  obtain ⟨token, ts, rfl, hother⟩ := h
  obtain ⟨next, first, -⟩ := lexes_cons_iff.mp found
  cases hs : skipSpace s with
  | nil =>
    rw [token?, hs] at first
    cases first
  | cons c after =>
    refine ⟨c, after, rfl, ?_⟩
    rintro rfl
    rw [token?_eq_mark_iff.mpr hs, Option.some.injEq, Prod.mk.injEq] at first
    exact hother first.1.symm

theorem isPart_tokens_of_list (v : Json) : IsPart .closeList v.tokens := by
  cases v <;> exact ⟨_, _, rfl, by simp⟩

theorem isPart_member (key : String) (v : Json) :
    IsPart .closeObject (.scalar (.string key) :: .mark .colon :: v.tokens) :=
  ⟨_, _, rfl, by simp⟩

namespace Enclosure

theorem next_eq_end_iff : e.next first s = .ok (false, rest) ↔ skipSpace s = e.close :: rest := by
  rw [next]
  cases skipSpace s with
  | nil => simp
  | cons c after =>
    dsimp only
    split_ifs with hclose hfirst hcomma
    · simp [hclose]
    · simp [hclose]
    · cases skipSpace after with
      | nil => simp [hclose]
      | cons d after =>
        dsimp only
        split_ifs <;> simp [hclose]
    · simp [hclose]

theorem next_first_iff : e.next true s = .ok (true, next) ↔
    ∃ c after, skipSpace s = c :: after ∧ c ≠ e.close ∧ next = c :: after := by
  rw [Enclosure.next]
  cases skipSpace s with
  | nil => simp
  | cons c after => by_cases hclose : c = e.close <;> simp [hclose, eq_comm]

/-- After a comma the next part is looked for as the first one is. -/
theorem next_later_iff (hcomma : e.close ≠ ',') : e.next false s = .ok (true, next) ↔
    ∃ after, skipSpace s = ',' :: after ∧ e.next true after = .ok (true, next) := by
  simp only [next_first_iff]
  rw [Enclosure.next]
  cases skipSpace s with
  | nil => simp
  | cons c after =>
    by_cases hc : c = ','
    · subst hc
      cases hafter : skipSpace after with
      | nil => simp [hcomma.symm, hafter]
      | cons d others =>
        by_cases hclose : d = e.close <;> simp [hcomma.symm, hafter, hclose, eq_comm]
    · by_cases hclose : c = e.close <;> simp [hc, hclose, hcomma]

/-- The next part is found after what leads to it. -/
theorem exists_next_iff (hclose : close.char = e.close) (hcomma : e.close ≠ ',')
    {part : List Token} (h : IsPart close part) :
    (∃ next, e.next first s = .ok (true, next) ∧ Lexes next part rest) ↔
      Lexes s (lead first ++ part) rest := by
  have hfirst : ∀ s, (∃ next, e.next true s = .ok (true, next) ∧ Lexes next part rest) ↔
      Lexes s part rest := by
    intro s
    constructor
    · rintro ⟨next, hnext, found⟩
      obtain ⟨c, after, hs, -, rfl⟩ := next_first_iff.mp hnext
      rw [← hs] at found
      exact (lexes_skipSpace_iff h.ne_nil).mp found
    · intro found
      obtain ⟨c, after, hs, hother⟩ := h.exists_skipSpace found
      rw [hclose] at hother
      refine ⟨c :: after, next_first_iff.mpr ⟨c, after, hs, hother, rfl⟩, ?_⟩
      rw [← hs]
      exact (lexes_skipSpace_iff h.ne_nil).mpr found
  cases first with
  | true => exact hfirst s
  | false =>
    have hlead : lead false ++ part = .mark .comma :: part := rfl
    rw [hlead, lexes_cons_iff]
    simp only [next_later_iff hcomma, token?_eq_mark_iff]
    constructor
    · rintro ⟨next, ⟨after, hs, hnext⟩, found⟩
      exact ⟨after, hs, (hfirst after).mp ⟨next, hnext, found⟩⟩
    · rintro ⟨after, hs, found⟩
      obtain ⟨next, hnext, found⟩ := (hfirst after).mpr found
      exact ⟨next, ⟨after, hs, hnext⟩, found⟩

/-- No white space is left before the next part. -/
theorem skipSpace_of_next (hcomma : e.close ≠ ',') (h : e.next first s = .ok (true, next)) :
    skipSpace next = next := by
  have hfirst : ∀ s, e.next true s = .ok (true, next) → skipSpace next = next := by
    intro s hnext
    obtain ⟨c, after, hs, -, rfl⟩ := next_first_iff.mp hnext
    rw [← hs, skipSpace_skipSpace]
  cases first with
  | true => exact hfirst s h
  | false =>
    obtain ⟨after, -, hnext⟩ := (next_later_iff hcomma).mp h
    exact hfirst after hnext

theorem exists_list_next_iff {part : List Token} (h : IsPart .closeList part) :
    (∃ next, list.next first s = .ok (true, next) ∧ Lexes next part rest) ↔
      Lexes s (lead first ++ part) rest :=
  exists_next_iff rfl (by decide) h

theorem exists_object_next_iff {part : List Token} (h : IsPart .closeObject part) :
    (∃ next, object.next first s = .ok (true, next) ∧ Lexes next part rest) ↔
      Lexes s (lead first ++ part) rest :=
  exists_next_iff rfl (by decide) h

end Enclosure

/-- A part and what leads to it take at least one character. -/
theorem length_lt_of_lead {part : List Token} (h : IsPart close part)
    (found : Lexes s (lead first ++ part) rest) : rest.length < s.length := by
  have hlength := found.length_le
  have hpart := List.length_pos_iff.mpr h.ne_nil
  rw [List.length_append] at hlength
  omega

theorem lexes_remaining_nil_iff :
    Lexes s (remaining close first []) rest ↔ skipSpace s = close.char :: rest := by
  simp [remaining, lexes_cons_iff, token?_eq_mark_iff]

theorem lexes_remaining_cons_iff {part : List Token} {parts : List (List Token)} :
    Lexes s (remaining close first (part :: parts)) rest ↔
      ∃ next, Lexes s (lead first ++ part) next ∧
        Lexes next (remaining close false parts) rest :=
  lexes_append_iff

/-- The reader gives the values that are spelled, up to a limit on how they are nested. -/
def ReadsSpelled (reader : Reader FaultCause Json) (limit : Nat) : Prop :=
  ∀ s v rest, reader s = .ok (v, rest) ↔ Lexes s v.tokens rest ∧ v.depth ≤ limit

theorem readItems_iff_lexes {item : Reader FaultCause Json} (h : ReadsSpelled item limit)
    {values : List Json} (enough : s.length < fuel) :
    readItems item fuel first s = .ok (values, rest) ↔
      Lexes s (remaining .closeList first (itemTokens values)) rest ∧
        ∀ v ∈ values, v.depth ≤ limit := by
  induction fuel generalizing first s values with
  | zero => omega
  | succ fuel ih =>
    rw [readItems_eq_ok_iff]
    constructor
    · rintro (⟨hnext, rfl⟩ | ⟨s₁, v, s₂, others, hnext, hitem, hothers, rfl⟩)
      · exact ⟨lexes_remaining_nil_iff.mpr (Enclosure.next_eq_end_iff.mp hnext), by simp⟩
      · have hpart := isPart_tokens_of_list v
        obtain ⟨hv, hdepth⟩ := (h _ _ _).mp hitem
        have hlead := (Enclosure.exists_list_next_iff hpart).mp ⟨s₁, hnext, hv⟩
        have hshorter := length_lt_of_lead hpart hlead
        obtain ⟨hothers, hall⟩ := (ih (by omega)).mp hothers
        exact ⟨lexes_remaining_cons_iff.mpr ⟨s₂, hlead, hothers⟩,
          List.forall_mem_cons.mpr ⟨hdepth, hall⟩⟩
    · rintro ⟨hlexes, hall⟩
      cases values with
      | nil =>
        have hend := lexes_remaining_nil_iff.mp hlexes
        exact .inl ⟨Enclosure.next_eq_end_iff.mpr hend, rfl⟩
      | cons v others =>
        have hpart := isPart_tokens_of_list v
        obtain ⟨hdepth, hall⟩ := List.forall_mem_cons.mp hall
        obtain ⟨s₂, hlead, hothers⟩ := lexes_remaining_cons_iff.mp hlexes
        obtain ⟨s₁, hnext, hv⟩ := (Enclosure.exists_list_next_iff hpart).mpr hlead
        have hshorter := length_lt_of_lead hpart hlead
        exact .inr ⟨s₁, v, s₂, others, hnext, (h _ _ _).mpr ⟨hv, hdepth⟩,
          (ih (by omega)).mpr ⟨hothers, hall⟩, rfl⟩

/-! ## Keys -/

theorem scalar?_eq_string_iff {c : Char} {text : String} :
    scalar? c s = some (.string text, rest) ↔ c = '"' ∧ readString s = .ok (text, rest) := by
  rw [scalar?]
  split_ifs with hn ht hf hquote hminus hdigit
  · simp [hn]
  · simp [ht]
  · simp [hf]
  · simp [hquote, toOption_eq_some_iff]
  · simp [hminus]
  · simp [hquote]
  · simp [hquote]

theorem exists_readString_of_lexes {text : String}
    (h : Lexes s (.scalar (.string text) :: ts) rest) :
    ∃ after next, skipSpace s = '"' :: after ∧ readString after = .ok (text, next) ∧
      Lexes next ts rest := by
  simp only [lexes_cons_iff, token?_eq_scalar_iff, scalar?_eq_string_iff] at h
  obtain ⟨next, ⟨c, after, hs, rfl, hstring⟩, hnext⟩ := h
  exact ⟨after, next, hs, hstring, hnext⟩

/-- No white space may stand before a key, since it was passed over on the way. -/
theorem readKey_iff_lexes {key : String} (hs : skipSpace s = s) :
    readKey s = .ok (key, rest) ↔ Lexes s [.scalar (.string key), .mark .colon] rest := by
  simp only [lexes_cons_iff, lexes_nil_iff, token?_eq_scalar_iff, token?_eq_mark_iff, hs]
  cases s with
  | nil => simp [readKey]
  | cons c after =>
    by_cases hc : c = '"'
    · subst hc
      cases hstring : readString after with
      | error fault => simp [readKey, hstring, scalar?_eq_string_iff]
      | ok got =>
        obtain ⟨text, left⟩ := got
        cases hleft : skipSpace left with
        | nil => simp [readKey, hstring, scalar?_eq_string_iff, hleft]
        | cons d others =>
          by_cases hcolon : d = ':' <;>
            simp [readKey, hstring, scalar?_eq_string_iff, hleft, hcolon, Mark.char]
    · simp [readKey, hc, scalar?_eq_string_iff]

theorem readMembers_iff_lexes {value : Reader FaultCause Json} (h : ReadsSpelled value limit)
    {members : List (String × Json)} (enough : s.length < fuel) :
    readMembers .any value fuel written s = .ok (members, rest) ↔
      Lexes s (remaining .closeObject written.isEmpty (memberTokens members)) rest ∧
        ∀ member ∈ members, member.2.depth ≤ limit := by
  induction fuel generalizing written s members with
  | zero => omega
  | succ fuel ih =>
    rw [readMembers_eq_ok_iff]
    constructor
    · rintro (⟨hnext, rfl⟩ | ⟨s₁, key, s₂, v, s₃, others, hnext, hkey, hvalue, -, hothers, rfl⟩)
      · exact ⟨lexes_remaining_nil_iff.mpr (Enclosure.next_eq_end_iff.mp hnext), by simp⟩
      · have hpart := isPart_member key v
        obtain ⟨hv, hdepth⟩ := (h _ _ _).mp hvalue
        have hkey := (readKey_iff_lexes (Enclosure.skipSpace_of_next (by decide) hnext)).mp hkey
        have hmember := lexes_append_iff.mpr ⟨s₂, hkey, hv⟩
        have hlead := (Enclosure.exists_object_next_iff hpart).mp ⟨s₁, hnext, hmember⟩
        have hshorter := length_lt_of_lead hpart hlead
        obtain ⟨hothers, hall⟩ := (ih (by omega)).mp hothers
        exact ⟨lexes_remaining_cons_iff.mpr ⟨s₃, hlead, hothers⟩,
          List.forall_mem_cons.mpr ⟨hdepth, hall⟩⟩
    · rintro ⟨hlexes, hall⟩
      cases members with
      | nil =>
        have hend := lexes_remaining_nil_iff.mp hlexes
        exact .inl ⟨Enclosure.next_eq_end_iff.mpr hend, rfl⟩
      | cons member others =>
        obtain ⟨key, v⟩ := member
        have hpart := isPart_member key v
        obtain ⟨hdepth, hall⟩ := List.forall_mem_cons.mp hall
        obtain ⟨s₃, hlead, hothers⟩ := lexes_remaining_cons_iff.mp hlexes
        obtain ⟨s₁, hnext, hmember⟩ := (Enclosure.exists_object_next_iff hpart).mpr hlead
        have hshorter := length_lt_of_lead hpart hlead
        have hsplit : Lexes s₁ ([.scalar (.string key), .mark .colon] ++ v.tokens) s₃ := hmember
        obtain ⟨s₂, hkey, hv⟩ := lexes_append_iff.mp hsplit
        have hkey := (readKey_iff_lexes (Enclosure.skipSpace_of_next (by decide) hnext)).mpr hkey
        exact .inr ⟨s₁, key, s₂, v, s₃, others, hnext, hkey, (h _ _ _).mpr ⟨hv, hdepth⟩, rfl,
          (ih (by omega)).mpr ⟨hothers, hall⟩, rfl⟩

/-! ## Values -/

/-- What is read inside a value: nothing at the greatest depth. -/
inductive ReadsInside : Option (Reader FaultCause Json) → Nat → Prop where
  | none : ReadsInside none 0
  | some {reader : Reader FaultCause Json} {limit : Nat} (h : ReadsSpelled reader limit) :
      ReadsInside (some reader) (limit + 1)

variable {rule : KeyRule} {inner : Option (Reader FaultCause Json)}

theorem map_eq_ok_iff_scalar {α : Type} {got : Except Fault α} {f : α → Json × List Char}
    {g : α → Scalar × List Char} (h : ∀ a, f a = ((g a).1.value, (g a).2)) {scalar : Scalar} :
    got.map f = .ok (scalar.value, rest) ↔ got.toOption.map g = some (scalar, rest) := by
  simp only [map_eq_ok_iff, toOption_map_eq_some_iff, h, Prod.ext_iff, Scalar.value_inj]

theorem valueWith_eq_scalar_iff {scalar : Scalar} :
    valueWith rule inner s = .ok (scalar.value, rest) ↔
      ∃ c after, skipSpace s = c :: after ∧ scalar? c after = some (scalar, rest) := by
  rw [valueWith]
  cases skipSpace s with
  | nil => simp
  | cons c after =>
    simp only [List.cons.injEq, ↓existsAndEq, and_true, true_and, scalar?]
    split_ifs
    · exact map_eq_ok_iff_scalar (by intro _; rfl)
    · exact map_eq_ok_iff_scalar (by intro _; rfl)
    · exact map_eq_ok_iff_scalar (by intro _; rfl)
    · exact map_eq_ok_iff_scalar (by intro _; rfl)
    · exact map_eq_ok_iff_scalar (by intro _; rfl)
    · exact map_eq_ok_iff_scalar (by intro _; rfl)
    · cases inner <;> simp [map_eq_ok_iff]
    · cases inner <;> simp [map_eq_ok_iff]
    · simp

theorem valueWith_eq_array_iff {items : List Json} :
    valueWith rule inner s = .ok (.array items, rest) ↔
      ∃ item after, inner = some item ∧ skipSpace s = '[' :: after ∧
        readItems item (after.length + 1) true after = .ok (items, rest) := by
  rw [valueWith]
  cases skipSpace s with
  | nil => simp
  | cons c after =>
    by_cases hlist : c = '['
    · subst hlist
      cases inner <;> simp [map_eq_ok_iff]
    · dsimp only
      split_ifs <;> cases inner <;> simp [map_eq_ok_iff, hlist]

theorem valueWith_eq_object_iff {members : List (String × Json)} :
    valueWith rule inner s = .ok (.object members, rest) ↔
      ∃ value after, inner = some value ∧ skipSpace s = '\x7b' :: after ∧
        readMembers rule value (after.length + 1) [] after = .ok (members, rest) := by
  rw [valueWith]
  cases skipSpace s with
  | nil => simp
  | cons c after =>
    by_cases hobject : c = '\x7b'
    · subst hobject
      cases inner <;> simp [map_eq_ok_iff]
    · dsimp only
      split_ifs <;> cases inner <;> simp [map_eq_ok_iff, hobject]

theorem lexes_array_iff {items : List Json} :
    Lexes s (tokens (.array items)) rest ↔ ∃ after, skipSpace s = '[' :: after ∧
      Lexes after (remaining .closeList true (itemTokens items)) rest := by
  rw [tokens, List.cons_append, intercalate_append_close, lexes_mark_iff]
  rfl

theorem lexes_object_iff {members : List (String × Json)} :
    Lexes s (tokens (.object members)) rest ↔ ∃ after, skipSpace s = '\x7b' :: after ∧
      Lexes after (remaining .closeObject true (memberTokens members)) rest := by
  rw [tokens, List.cons_append, intercalate_append_close, lexes_mark_iff]
  rfl

theorem lexes_value_iff {scalar : Scalar} :
    Lexes s scalar.value.tokens rest ↔
      ∃ c after, skipSpace s = c :: after ∧ scalar? c after = some (scalar, rest) := by
  rw [tokens_value, lexes_cons_iff]
  simp [token?_eq_scalar_iff]

theorem valueWith_iff_lexes (h : ReadsInside inner limit) :
    ReadsSpelled (valueWith .any inner) limit := by
  intro s v rest
  rcases v.value_cases with ⟨scalar, rfl⟩ | ⟨items, rfl⟩ | ⟨members, rfl⟩
  · rw [valueWith_eq_scalar_iff, lexes_value_iff, depth_value]
    simp
  · rw [valueWith_eq_array_iff, lexes_array_iff]
    cases h with
    | none => simp [depth]
    | some h =>
      rw [depth, Nat.add_le_add_iff_right, itemsDepth_le_iff]
      constructor
      · rintro ⟨_, after, ⟨⟩, hs, hread⟩
        obtain ⟨hlexes, hall⟩ := (readItems_iff_lexes h (Nat.lt_succ_self _)).mp hread
        exact ⟨⟨after, hs, hlexes⟩, hall⟩
      · rintro ⟨⟨after, hs, hlexes⟩, hall⟩
        exact ⟨_, after, rfl, hs, (readItems_iff_lexes h (Nat.lt_succ_self _)).mpr ⟨hlexes, hall⟩⟩
  · rw [valueWith_eq_object_iff, lexes_object_iff]
    cases h with
    | none => simp [depth]
    | some h =>
      rw [depth, Nat.add_le_add_iff_right, membersDepth_le_iff]
      constructor
      · rintro ⟨_, after, ⟨⟩, hs, hread⟩
        obtain ⟨hlexes, hall⟩ := (readMembers_iff_lexes h (Nat.lt_succ_self _)).mp hread
        exact ⟨⟨after, hs, hlexes⟩, hall⟩
      · rintro ⟨⟨after, hs, hlexes⟩, hall⟩
        exact ⟨_, after, rfl, hs,
          (readMembers_iff_lexes h (Nat.lt_succ_self _)).mpr ⟨hlexes, hall⟩⟩

theorem readValue_iff_lexes (limit : Nat) : ReadsSpelled (readValue .any limit) limit := by
  induction limit with
  | zero => exact valueWith_iff_lexes .none
  | succ limit ih => exact valueWith_iff_lexes (.some ih)

/-- A text is a document when it spells it and the document is not nested too deeply. -/
theorem read_any_iff_spells {text : String} {document : Json} :
    read .any text = .ok document ↔ Spells text document ∧ document.depth ≤ maxDepth := by
  rw [read_eq_ok_iff]
  constructor
  · rintro ⟨rest, hvalue, hrest⟩
    obtain ⟨hlexes, hdepth⟩ := (readValue_iff_lexes maxDepth _ _ _).mp hvalue
    exact ⟨⟨rest, hlexes, hrest⟩, hdepth⟩
  · rintro ⟨⟨rest, hlexes, hrest⟩, hdepth⟩
    exact ⟨rest, (readValue_iff_lexes maxDepth _ _ _).mpr ⟨hlexes, hdepth⟩, hrest⟩

/-- A text spells one document at most. -/
theorem Spells.unique {text : String} {document other : Json} (h : Spells text document)
    (hother : Spells text other) : document = other := by
  obtain ⟨rest, hlexes, -⟩ := h
  obtain ⟨otherRest, hotherLexes, -⟩ := hother
  have hread := (readValue_iff_lexes (max document.depth other.depth) _ _ _).mpr
    ⟨hlexes, Nat.le_max_left _ _⟩
  have hotherRead := (readValue_iff_lexes (max document.depth other.depth) _ _ _).mpr
    ⟨hotherLexes, Nat.le_max_right _ _⟩
  rw [hread, Except.ok.injEq, Prod.mk.injEq] at hotherRead
  exact hotherRead.1

end FakeData.Json
