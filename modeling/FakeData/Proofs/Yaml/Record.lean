import FakeData.Proofs.Yaml.Line
import FakeData.Yaml.Record

/-!
# Records that are read back

The tokens of the lines of a record are read as a mapping whose entries are the names and texts of
the fields, in their order.
-/
namespace FakeData.Yaml

variable {tokens : List Token} {kinds : List TokenKind} {fields : List Field} {field : Field}
  {fuel : Nat}

/-! ## Nodes -/

def Field.IsEntry (field : Field) (entry : Node × Node) : Prop :=
  ∃ nameMark valueMark, entry = (.scalar nameMark true (.ofList field.name),
    .scalar valueMark field.plain field.text)

theorem exists_token {kind : TokenKind} (h : tokens.map Token.kind = kind :: kinds) :
    ∃ token rest, tokens = token :: rest ∧ token.kind = kind ∧
      rest.map Token.kind = kinds := by
  cases tokens with
  | nil => cases h
  | cons token rest =>
    rw [List.map_cons, List.cons.injEq] at h
    exact ⟨token, rest, rfl, h⟩

theorem readNode_scalar {surroundings : Surroundings} {token : Token} {plain : Bool} {text : String}
    (h : token.kind = .scalar plain text) :
    readNode surroundings (fuel + 1) (token :: tokens) =
      (.scalar token.start plain text, some tokens) := by
  simp only [readNode, h]

/-- The four tokens of a field are read as an entry, and then the other fields. -/
theorem readPairs_field (h : tokens.map Token.kind = field.kinds ++ kinds) :
    ∃ entry rest, field.IsEntry entry ∧ rest.map Token.kind = kinds ∧
      readPairs (fuel + 2) tokens =
        (entry :: (readPairs (fuel + 1) rest).1, (readPairs (fuel + 1) rest).2) := by
  obtain ⟨key, tokens, rfl, hkey, h⟩ := exists_token h
  obtain ⟨name, tokens, rfl, hname, h⟩ := exists_token h
  obtain ⟨colon, tokens, rfl, hcolon, h⟩ := exists_token h
  obtain ⟨text, rest, rfl, htext, hrest⟩ := exists_token h
  refine ⟨_, rest, ⟨name.start, text.start, rfl⟩, hrest, ?_⟩
  simp [readPairs, hkey, Surroundings.readEntry, Surroundings.readOptional, hname,
    Surroundings.endsKey, Surroundings.endsValue, readNode_scalar hname, Parsed.entry,
    Surroundings.readValue, hcolon, htext, readNode_scalar htext, Parsed.cons]

theorem readPairs_fields (hfuel : fields.length + 1 < fuel)
    (h : tokens.map Token.kind = fields.flatMap Field.kinds ++ .blockEnd :: kinds) :
    ∃ entries rest, List.Forall₂ Field.IsEntry fields entries ∧
      rest.map Token.kind = kinds ∧ readPairs fuel tokens = (entries, some rest) := by
  induction fields generalizing tokens fuel with
  | nil =>
    obtain ⟨token, rest, rfl, hend, hrest⟩ := exists_token h
    obtain ⟨fuel, rfl⟩ : ∃ n, fuel = n + 1 := ⟨fuel - 1, by omega⟩
    exact ⟨[], rest, .nil, hrest, by simp [readPairs, hend]⟩
  | cons field fields ih =>
    rw [List.length_cons] at hfuel
    obtain ⟨fuel, rfl⟩ : ∃ n, fuel = n + 2 := ⟨fuel - 2, by omega⟩
    rw [List.flatMap_cons, List.append_assoc] at h
    obtain ⟨entry, tokens, hentry, htokens, hread⟩ := @readPairs_field tokens _ field fuel h
    have hless : fields.length + 1 < fuel + 1 := by omega
    obtain ⟨entries, rest, hentries, hrest, hmore⟩ := ih hless htokens
    exact ⟨entry :: entries, rest, .cons hentry hentries, hrest, by rw [hread, hmore]⟩

/-- The document is a mapping of the fields, and nothing follows it. -/
theorem readDocument_fields (h : tokens.map Token.kind =
    .blockMapping :: (fields.flatMap Field.kinds ++ [.blockEnd, .textEnd])) :
    ∃ mark entries, readDocument tokens = ⟨.mapping mark entries, true⟩ ∧
      List.Forall₂ Field.IsEntry fields entries := by
  have hlength : fields.length < tokens.length := by
    have hkinds := congrArg List.length h
    have hfour : (fields.flatMap Field.kinds).length = fields.length * 4 := by
      simp [List.length_flatMap, Field.kinds]
    rw [List.length_map, List.length_cons, List.length_append, hfour] at hkinds
    omega
  obtain ⟨token, tokens, rfl, hblock, h⟩ := exists_token h
  have hfuel : fields.length + 1 < 3 * (tokens.length + 1) + 2 := by
    rw [List.length_cons] at hlength
    omega
  obtain ⟨entries, rest, hentries, hrest, hread⟩ := readPairs_fields hfuel h
  obtain ⟨last, rest, rfl, hlast, hrest⟩ := exists_token hrest
  refine ⟨token.start, entries, ?_, hentries⟩
  simp [readDocument, hblock, readRoot, readNode, Surroundings.allowsBlocks, hread, Parsed.gather,
    endsAfter, hlast]

/-! ## Texts -/

theorem isReadable_of_isPrintable {c : Char} (h : isPrintable c = true) : isReadable c = true := by
  simp only [isPrintable, isReadable, Bool.or_eq_true, Bool.and_eq_true, beq_iff_eq,
    decide_eq_true_eq] at h ⊢
  omega

theorem unifyBreaks_of_isPrintable {s : List Char} (h : ∀ c ∈ s, isPrintable c = true) :
    unifyBreaks s = s := by
  induction s with
  | nil => rfl
  | cons c s ih =>
    obtain ⟨hc, hs⟩ := List.forall_mem_cons.mp h
    have hreturn : c ≠ '\r' := ne_of_isPrintable hc rfl
    have hnext : c ≠ '\u0085' := ne_of_isPrintable hc rfl
    rw [unifyBreaks.eq_def]
    split
    · rename_i heq
      cases heq
    · rename_i heq
      rw [List.cons.injEq] at heq
      exact absurd heq.1 hreturn
    · rename_i heq
      cases heq
      rw [ih hs]
      simp [hreturn, hnext]

theorem readText_fields (hfields : ∀ f ∈ field :: fields, f.Reads) :
    ∃ mark entries,
      readText (.ofList ((field :: fields).flatMap Field.line)) = ⟨.mapping mark entries, true⟩ ∧
      List.Forall₂ Field.IsEntry (field :: fields) entries := by
  have hprint : ∀ c ∈ (field :: fields).flatMap Field.line, isPrintable c = true := by
    intro c hc
    obtain ⟨f, hf, hc⟩ := List.mem_flatMap.mp hc
    exact (hfields f hf).isPrintable c hc
  have hreadable : ((field :: fields).flatMap Field.line).all isReadable = true := by
    rw [List.all_eq_true]
    intro c hc
    exact isReadable_of_isPrintable (hprint c hc)
  rw [readText, String.toList_ofList, if_pos hreadable, unifyBreaks_of_isPrintable hprint]
  exact readDocument_fields (kinds_tokensOf hfields)

/-! ## Schemas -/

namespace Schema

variable {σ : Type} {schema : Schema σ} {record record' : σ} {present : List String}

/-- The fields are known and each is new, and together they make one record of the other. -/
inductive Sets (schema : Schema σ) : List Field → List String → σ → σ → Prop where
  | nil (present : List String) (record : σ) : Sets schema [] present record record
  | cons {field : Field} {fields : List Field} {name : String} {present : List String}
      {before middle after : σ} (named : .ofList field.name = name)
      (known : schema.fields.contains name = true) (new : present.contains name = false)
      (set : ∀ mark, schema.set name (.scalar mark field.plain field.text) before = .ok middle)
      (more : Sets schema fields (name :: present) middle after) :
      Sets schema (field :: fields) present before after

/-- The names of fields, the last one first. -/
def found (fields : List Field) : List String := (fields.map fun f => .ofList f.name).reverse

theorem takeEntries_of_sets {entries : List (Node × Node)} (root : Mark)
    (hentries : List.Forall₂ Field.IsEntry fields entries)
    (h : schema.Sets fields present record record') :
    schema.takeEntries root entries present record = .ok (record', found fields ++ present) := by
  induction h generalizing entries with
  | nil present record =>
    cases hentries
    rfl
  | cons named known new set more ih =>
    subst named
    cases hentries with
    | cons hentry hentries =>
      obtain ⟨nameMark, valueMark, rfl⟩ := hentry
      rw [takeEntries, if_pos known, if_neg (by rw [new]; decide)]
      simp [take, set, ih hentries, found]

/-- A record is read from its lines if they have all the fields that it must have. -/
theorem read_lines {required : List String} (hfields : ∀ f ∈ field :: fields, f.Reads)
    (h : schema.Sets (field :: fields) [] record record')
    (hrequired : ∀ name ∈ required, name ∈ found (field :: fields)) :
    schema.read required record (.ofList ((field :: fields).flatMap Field.line)) =
      .ok record' := by
  obtain ⟨mark, entries, hdocument, hentries⟩ := readText_fields hfields
  have hpresent : required.find? (!(found (field :: fields)).contains ·) = none := by
    rw [List.find?_eq_none]
    intro name hname
    simpa using hrequired name hname
  simp only [read, hdocument, takeRoot, takeEntries_of_sets mark hentries h, List.append_nil,
    hpresent, if_true]

end Schema

end FakeData.Yaml
