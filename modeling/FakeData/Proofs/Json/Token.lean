import FakeData.Proofs.Json.Lexer

/-!
# Tokens of JSON texts

A text is a row of tokens with white space around them, and so is a document: the members of its
objects and the items of its lists are written one after the other. A text spells a document when
the two rows are the same.
-/
namespace FakeData.Json

/-! ## Tokens -/

inductive Mark where
  | openList
  | closeList
  | openObject
  | closeObject
  | comma
  | colon
  deriving DecidableEq, Repr

def Mark.char : Mark → Char
  | .openList => '['
  | .closeList => ']'
  | .openObject => '\x7b'
  | .closeObject => '\x7d'
  | .comma => ','
  | .colon => ':'

def Mark.ofChar? : Char → Option Mark
  | '[' => some .openList
  | ']' => some .closeList
  | '\x7b' => some .openObject
  | '\x7d' => some .closeObject
  | ',' => some .comma
  | ':' => some .colon
  | _ => none

inductive Scalar where
  | null
  | bool (value : Bool)
  | number (value : JsonNumber)
  | string (text : String)
  deriving DecidableEq, Repr

def Scalar.value : Scalar → Json
  | .null => .null
  | .bool value => .bool value
  | .number value => .number value
  | .string text => .string text

theorem Scalar.value_inj {scalar other : Scalar} : scalar.value = other.value ↔ scalar = other := by
  cases scalar <;> cases other <;> simp [Scalar.value]

@[simp] theorem Scalar.array_ne_value (scalar : Scalar) (items : List Json) :
    .array items ≠ scalar.value := by
  cases scalar <;> simp [Scalar.value]

@[simp] theorem Scalar.object_ne_value (scalar : Scalar) (members : List (String × Json)) :
    .object members ≠ scalar.value := by
  cases scalar <;> simp [Scalar.value]

inductive Token where
  | mark (mark : Mark)
  | scalar (scalar : Scalar)
  deriving DecidableEq, Repr

def scalar? (c : Char) (s : List Char) : Option (Scalar × List Char) :=
  if c = 'n' then (readWord ['u', 'l', 'l'] s).toOption.map fun (_, s) => (.null, s)
  else if c = 't' then (readWord ['r', 'u', 'e'] s).toOption.map fun (_, s) => (.bool true, s)
  else if c = 'f' then
    (readWord ['a', 'l', 's', 'e'] s).toOption.map fun (_, s) => (.bool false, s)
  else if c = '"' then (readString s).toOption.map fun (text, s) => (.string text, s)
  else if c = '-' then (readNumber true s).toOption.map fun (n, s) => (.number n, s)
  else if c.isDigit then (readNumber false (c :: s)).toOption.map fun (n, s) => (.number n, s)
  else none

def token? (s : List Char) : Option (Token × List Char) :=
  match skipSpace s with
  | [] => none
  | c :: s =>
    match Mark.ofChar? c with
    | some mark => some (.mark mark, s)
    | none => (scalar? c s).map fun (scalar, s) => (.scalar scalar, s)

/-- The text begins with the tokens, and the rest of it comes after them. -/
inductive Lexes : List Char → List Token → List Char → Prop where
  | nil (s : List Char) : Lexes s [] s
  | cons {s next rest : List Char} {token : Token} {tokens : List Token}
      (first : token? s = some (token, next)) (more : Lexes next tokens rest) :
      Lexes s (token :: tokens) rest

variable {s next rest : List Char} {token : Token} {ts us : List Token} {c : Char}

theorem Mark.ofChar?_char (mark : Mark) : Mark.ofChar? mark.char = some mark := by
  cases mark <;> rfl

theorem Mark.ofChar?_eq_some_iff {mark : Mark} : Mark.ofChar? c = some mark ↔ c = mark.char := by
  constructor
  · intro h
    unfold Mark.ofChar? at h
    split at h
    all_goals cases h
    all_goals rfl
  · rintro rfl
    exact mark.ofChar?_char

theorem Mark.char_inj {mark other : Mark} : mark.char = other.char ↔ mark = other := by
  rw [← Mark.ofChar?_eq_some_iff, Mark.ofChar?_char, Option.some.injEq]

/-- No value begins with a mark. -/
theorem scalar?_mark (mark : Mark) (s : List Char) : scalar? mark.char s = none := by
  cases mark <;> simp [scalar?, Mark.char]

theorem token?_eq_mark_iff {mark : Mark} :
    token? s = some (.mark mark, rest) ↔ skipSpace s = mark.char :: rest := by
  rw [token?]
  cases skipSpace s with
  | nil => simp
  | cons c s =>
    cases hmark : Mark.ofChar? c with
    | none =>
      have hc : c ≠ mark.char := by
        rintro rfl
        rw [mark.ofChar?_char] at hmark
        cases hmark
      simp [hmark, hc]
    | some other =>
      obtain rfl := Mark.ofChar?_eq_some_iff.mp hmark
      simp [hmark, Mark.char_inj]

theorem token?_eq_scalar_iff {scalar : Scalar} :
    token? s = some (.scalar scalar, rest) ↔
      ∃ c after, skipSpace s = c :: after ∧ scalar? c after = some (scalar, rest) := by
  rw [token?]
  cases skipSpace s with
  | nil => simp
  | cons c s =>
    cases hmark : Mark.ofChar? c with
    | none => simp [hmark]
    | some mark =>
      obtain rfl := Mark.ofChar?_eq_some_iff.mp hmark
      simp [hmark, scalar?_mark]

/-- White space before a token is passed over. -/
theorem token?_skipSpace (s : List Char) : token? (skipSpace s) = token? s := by
  rw [token?, token?, skipSpace_skipSpace]

theorem scalar?_suffix {scalar : Scalar} (h : scalar? c s = some (scalar, rest)) : rest <:+ s := by
  rw [scalar?] at h
  split_ifs at h
  · obtain ⟨_, hword, hrest⟩ := toOption_map_eq_some_iff.mp h
    cases hrest
    exact readWord_suffix hword
  · obtain ⟨_, hword, hrest⟩ := toOption_map_eq_some_iff.mp h
    cases hrest
    exact readWord_suffix hword
  · obtain ⟨_, hword, hrest⟩ := toOption_map_eq_some_iff.mp h
    cases hrest
    exact readWord_suffix hword
  · obtain ⟨_, hstring, hrest⟩ := toOption_map_eq_some_iff.mp h
    cases hrest
    exact readString_suffix hstring
  · obtain ⟨_, hnumber, hrest⟩ := toOption_map_eq_some_iff.mp h
    cases hrest
    obtain ⟨digit, after, rfl, hafter⟩ := readNumber_suffix hnumber
    exact hafter.trans (List.suffix_cons digit after)
  · obtain ⟨_, hnumber, hrest⟩ := toOption_map_eq_some_iff.mp h
    cases hrest
    obtain ⟨digit, after, hs, hafter⟩ := readNumber_suffix hnumber
    cases hs
    exact hafter

/-- A token takes at least one character. -/
theorem length_lt_of_token? (h : token? s = some (token, rest)) : rest.length < s.length := by
  have hskip := (skipSpace_suffix s).length_le
  cases token with
  | mark mark =>
    rw [token?_eq_mark_iff.mp h, List.length_cons] at hskip
    omega
  | scalar scalar =>
    obtain ⟨c, after, hs, hscalar⟩ := token?_eq_scalar_iff.mp h
    have hafter := (scalar?_suffix hscalar).length_le
    rw [hs, List.length_cons] at hskip
    omega

@[simp] theorem lexes_nil_iff : Lexes s [] rest ↔ rest = s := by
  constructor
  · rintro ⟨⟩
    rfl
  · rintro rfl
    exact .nil _

theorem lexes_cons_iff :
    Lexes s (token :: ts) rest ↔ ∃ next, token? s = some (token, next) ∧ Lexes next ts rest := by
  constructor
  · rintro (_ | ⟨first, more⟩)
    exact ⟨_, first, more⟩
  · rintro ⟨next, first, more⟩
    exact .cons first more

theorem lexes_mark_iff {mark : Mark} : Lexes s (.mark mark :: ts) rest ↔
    ∃ next, skipSpace s = mark.char :: next ∧ Lexes next ts rest := by
  simp only [lexes_cons_iff, token?_eq_mark_iff]

theorem lexes_append_iff :
    Lexes s (ts ++ us) rest ↔ ∃ next, Lexes s ts next ∧ Lexes next us rest := by
  induction ts generalizing s with
  | nil => simp
  | cons token ts ih =>
    simp only [List.cons_append, lexes_cons_iff, ih]
    constructor
    · rintro ⟨between, first, next, hts, hus⟩
      exact ⟨next, ⟨between, first, hts⟩, hus⟩
    · rintro ⟨next, ⟨between, first, hts⟩, hus⟩
      exact ⟨between, first, next, hts, hus⟩

theorem lexes_skipSpace_iff (nonempty : ts ≠ []) :
    Lexes (skipSpace s) ts rest ↔ Lexes s ts rest := by
  obtain ⟨token, ts, rfl⟩ := List.exists_cons_of_ne_nil nonempty
  rw [lexes_cons_iff, lexes_cons_iff, token?_skipSpace]

theorem Lexes.length_le (h : Lexes s ts rest) : ts.length + rest.length ≤ s.length := by
  induction h with
  | nil => simp
  | cons first _ ih =>
    have hlt := length_lt_of_token? first
    rw [List.length_cons]
    omega

/-! ## Documents -/

mutual

def tokens : Json → List Token
  | .null => [.scalar .null]
  | .bool value => [.scalar (.bool value)]
  | .number value => [.scalar (.number value)]
  | .string text => [.scalar (.string text)]
  | .array items =>
    .mark .openList :: [.mark .comma].intercalate (itemTokens items) ++ [.mark .closeList]
  | .object members =>
    .mark .openObject :: [.mark .comma].intercalate (memberTokens members) ++ [.mark .closeObject]

def itemTokens : List Json → List (List Token)
  | [] => []
  | item :: items => tokens item :: itemTokens items

def memberTokens : List (String × Json) → List (List Token)
  | [] => []
  | (key, value) :: members =>
    (.scalar (.string key) :: .mark .colon :: tokens value) :: memberTokens members

end

mutual

/-- How many lists and objects lie around the innermost part of a value. -/
def depth : Json → Nat
  | .array items => itemsDepth items + 1
  | .object members => membersDepth members + 1
  | _ => 0

def itemsDepth : List Json → Nat
  | [] => 0
  | item :: items => max (depth item) (itemsDepth items)

def membersDepth : List (String × Json) → Nat
  | [] => 0
  | (_, value) :: members => max (depth value) (membersDepth members)

end

theorem tokens_value (scalar : Scalar) : scalar.value.tokens = [.scalar scalar] := by
  cases scalar <;> rfl

theorem depth_value (scalar : Scalar) : scalar.value.depth = 0 := by
  cases scalar <;> rfl

/-- A value is a scalar, a list or an object. -/
theorem value_cases (v : Json) : (∃ scalar : Scalar, v = scalar.value) ∨
    (∃ items, v = .array items) ∨ ∃ members, v = .object members := by
  cases v with
  | null => exact .inl ⟨.null, rfl⟩
  | bool value => exact .inl ⟨.bool value, rfl⟩
  | number value => exact .inl ⟨.number value, rfl⟩
  | string text => exact .inl ⟨.string text, rfl⟩
  | array items => exact .inr (.inl ⟨items, rfl⟩)
  | object members => exact .inr (.inr ⟨members, rfl⟩)

theorem itemTokens_eq_map (items : List Json) : itemTokens items = items.map tokens := by
  induction items with
  | nil => rfl
  | cons item items ih => rw [itemTokens, ih, List.map_cons]

theorem memberTokens_eq_map (members : List (String × Json)) :
    memberTokens members =
      members.map fun member => .scalar (.string member.1) :: .mark .colon :: member.2.tokens := by
  induction members with
  | nil => rfl
  | cons member members ih => rw [memberTokens, ih, List.map_cons]

theorem itemsDepth_le_iff {items : List Json} {limit : Nat} :
    itemsDepth items ≤ limit ↔ ∀ item ∈ items, item.depth ≤ limit := by
  induction items with
  | nil => simp [itemsDepth]
  | cons item items ih => rw [itemsDepth, Nat.max_le, ih, List.forall_mem_cons]

theorem membersDepth_le_iff {members : List (String × Json)} {limit : Nat} :
    membersDepth members ≤ limit ↔ ∀ member ∈ members, member.2.depth ≤ limit := by
  induction members with
  | nil => simp [membersDepth]
  | cons member members ih => rw [membersDepth, Nat.max_le, ih, List.forall_mem_cons]

/-- The tokens of the text are those of the document, in the same order. -/
def Spells (text : String) (document : Json) : Prop :=
  ∃ rest, Lexes text.toList document.tokens rest ∧ skipSpace rest = []

end FakeData.Json
