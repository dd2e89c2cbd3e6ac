import FakeData.Proofs.Yaml.Value

/-!
# Lines of keys and values

A record is written line by line, each with a name, a colon and a value. The lexer makes four tokens
of every line and comes to the beginning of the next one.
-/
namespace FakeData.Yaml

variable {c : Char} {s name rest : List Char}

namespace Lexer

variable {l l' : Lexer} {indents : List Nat} {kinds : List TokenKind}

/-! ## Keys -/

/-- The name of a field, which is read as a key at the beginning of a line. -/
structure IsName (name : List Char) : Prop where
  plain : allowsPlain name = true
  nonempty : name ≠ []
  separate : ∀ t, isSeparator (name ++ t) = false
  short : (name.map Char.utf8Size).sum ≤ Candidate.maxLength

def opening (indents : List Nat) : List TokenKind :=
  if indents = [] then [.blockMapping] else []

/-- The lexer has come to the colon after a token that it makes a key. -/
structure AtColon (l : Lexer) (indents : List Nat) (kinds : List TokenKind) (rest : List Char) :
    Prop where
  candidate : ∃ candidate, l.candidate = some candidate ∧ candidate.mark.column = 0 ∧
    l.count = candidate.before + 1 ∧ candidate.isStale l.mark = false
  outer : l.outer = []
  indents : l.indents = indents
  kinds : l.tokens.map Token.kind = kinds
  cursor : ∃ mark, mark.column ≠ 0 ∧ l.cursor = ⟨':' :: ' ' :: rest, mark, false⟩

theorem idle_makeKey {candidate : Candidate} {kind : TokenKind}
    (hcount : l.count = candidate.before + 1) (hcolumn : candidate.mark.column = 0)
    (houter : l.outer = []) (hindents : l.indents = [] ∨ l.indents = [0])
    (hkinds : l.tokens.map Token.kind = kind :: kinds) :
    (l.makeKey candidate).Idle [0] (kind :: .key :: (opening l.indents ++ kinds)) ∧
      (l.makeKey candidate).cursor = l.cursor := by
  obtain ⟨cursor, indents, found, outer, tokens, count⟩ := l
  simp only at hcount houter hindents hkinds
  subst houter hcount
  cases tokens with
  | nil => cases hkinds
  | cons token tokens =>
    rw [List.map_cons, List.cons.injEq] at hkinds
    obtain ⟨rfl, rfl⟩ := hkinds
    have hlater : candidate.before + 1 + 1 - candidate.before = 2 := by omega
    rcases hindents with rfl | rfl
    · have hmade : makeKey ⟨cursor, [], found, [], token :: tokens, candidate.before + 1⟩
          candidate = ⟨cursor, [0], none, [], token :: ⟨.key, candidate.mark, candidate.mark⟩ ::
            ⟨.blockMapping, candidate.mark, candidate.mark⟩ :: tokens, candidate.before + 3⟩ := by
        simp [makeKey, insert, startsBlock, isBracketed, hcolumn, hlater]
      rw [hmade]
      exact ⟨⟨rfl, rfl, rfl, rfl⟩, rfl⟩
    · have hmade : makeKey ⟨cursor, [0], found, [], token :: tokens, candidate.before + 1⟩
          candidate = ⟨cursor, [0], none, [], token :: ⟨.key, candidate.mark, candidate.mark⟩ ::
            tokens, candidate.before + 2⟩ := by
        simp [makeKey, insert, startsBlock, isBracketed, hcolumn]
      rw [hmade]
      exact ⟨⟨rfl, rfl, rfl, rfl⟩, rfl⟩

theorem offer_of_fresh (hfresh : l.cursor.fresh = true) (hcandidate : l.candidate = none) :
    ∃ required, l.offer = some { l with candidate := some ⟨l.mark, l.count, required⟩ } := by
  rw [offer, if_pos hfresh, dropCandidate_of_none hcandidate]
  exact ⟨_, rfl⟩

/-- A key is read from its first character on. -/
theorem AtLine.exists_next (h : l.AtLine indents kinds (c :: s))
    (hindents : ∀ column ∈ indents, column = 0) :
    ∃ (l' : Lexer) (line : Nat), l'.Idle indents kinds ∧
      l'.cursor = ⟨c :: s, ⟨line, 0, 0⟩, true⟩ ∧ l.next = (l'.lexFrom c s).bind dropStale := by
  obtain ⟨line, hskip⟩ := h.cursor
  exact ⟨{ l with cursor := ⟨c :: s, ⟨line, 0, 0⟩, true⟩ }, line,
    ⟨h.candidate, h.outer, h.indents, h.kinds⟩, rfl,
    next_eq h.outer (by rwa [h.indents]) hskip (dropStale_of_none h.candidate h.outer)⟩

theorem AtLine.exists_atColon (h : l.AtLine indents kinds (name ++ ':' :: ' ' :: rest))
    (hname : IsName name) (hindents : ∀ column ∈ indents, column = 0) :
    ∃ l', l.next = some l' ∧ l'.AtColon indents (.scalar true (.ofList name) :: kinds) rest := by
  cases name with
  | nil => exact absurd rfl hname.nonempty
  | cons c s =>
    have hplain := isPlain_of_allowsPlain hname.plain
    have hseparate := hname.separate (':' :: ' ' :: rest)
    rw [List.cons_append] at h
    obtain ⟨l', line, hidle, hcursor, hnext⟩ := h.exists_next hindents
    obtain ⟨required, hoffer⟩ := offer_of_fresh (by rw [hcursor]) hidle.candidate
    have hread : ∀ indent, readPlain false indent l'.cursor =
        some (c :: s, ⟨':' :: ' ' :: rest, (c :: s).foldl Mark.past ⟨line, 0, 0⟩, false⟩) := by
      intro indent
      have hsplit : c :: (s ++ ':' :: ' ' :: rest) = c :: s ++ ':' :: ' ' :: rest := rfl
      rw [hcursor, readPlain, hsplit, hplain.plainFrom (.inr hseparate), plainFrom_colon rfl]
      simp
    have hbracketed : isBracketed { l' with candidate := some ⟨l'.mark, l'.count, required⟩ } =
        false := isBracketed_of_outer hidle.outer
    have hstale : Candidate.isStale ((c :: s).foldl Mark.past ⟨line, 0, 0⟩)
        ⟨l'.mark, l'.count, required⟩ = false := by
      have hshort := hname.short
      simp only [Candidate.isStale, Lexer.mark, hcursor, line_foldl_past, offset_foldl_past]
      simpa using hshort
    rw [hnext, lexFrom_plain hplain hidle.outer (.inr hseparate), lexPlain, hoffer,
      Option.bind_some, hbracketed, hread]
    refine ⟨_, dropStale_of_some rfl hidle.outer hstale, ⟨_, rfl, ?_, rfl, hstale⟩, hidle.outer,
      hidle.indents, ?_, _, ?_, rfl⟩
    · simp [Lexer.mark, hcursor]
    · simp [addTo, hidle.kinds]
    · rw [column_foldl_past]
      simp

theorem AtColon.exists_atValue {kind : TokenKind} (h : l.AtColon indents (kind :: kinds) rest)
    (hindents : indents = [] ∨ indents = [0]) : ∃ l', l.next = some l' ∧
      l'.AtValue (.value :: kind :: .key :: (opening indents ++ kinds)) rest := by
  obtain ⟨candidate, hcandidate, hcolumn, hcount, hstale⟩ := h.candidate
  obtain ⟨mark, hmark, hcursor⟩ := h.cursor
  have hskip : Cursor.skip false l.cursor = ⟨':' :: ' ' :: rest, mark, false⟩ := by
    have hstarts : StartsLine (':' :: ' ' :: rest) := by
      intro d hd
      obtain rfl : ':' = d := by simpa using hd
      decide
    rw [hcursor, Cursor.skip]
    exact skipFrom_startsLine hstarts mark false
  have hsame : { l with cursor := ⟨':' :: ' ' :: rest, mark, false⟩ } = l := by rw [← hcursor]
  have hzero : ∀ column ∈ l.indents, column = 0 := by
    rw [h.indents]
    rcases hindents with rfl | rfl <;> simp
  obtain ⟨hidle, hkeep⟩ := idle_makeKey hcount hcolumn h.outer (by rwa [h.indents]) h.kinds
  rw [h.indents] at hidle
  rw [next_eq h.outer hzero hskip (by rw [hsame, dropStale_of_some hcandidate h.outer hstale]),
    hsame, lexFrom_colon h.outer rfl, lexColon, hcandidate]
  refine ⟨_, dropStale_of_none hidle.candidate hidle.outer,
    ⟨hidle.candidate, hidle.outer, hidle.indents, ?_⟩, mark.right 1, Nat.succ_ne_zero _, ?_⟩
  · simp [addSign, addTo, hidle.kinds]
  · simp [addSign, addTo, hkeep, hcursor, Cursor.pass]

/-! ## Runs -/

/-- So many steps of a run make one lexer from the other. -/
def Advances (steps : Nat) (l l' : Lexer) : Prop := ∀ fuel, run (fuel + steps) l = run fuel l'

theorem Advances.trans {m n : Nat} {l'' : Lexer} (h : Advances m l l') (h' : Advances n l' l'') :
    Advances (m + n) l l'' := by
  intro fuel
  rw [Nat.add_comm m, ← Nat.add_assoc, h, h']

/-- A lexer is not done before there is a token for the end of the text. -/
theorem isDone_of_notMem (h : l.tokens.map Token.kind = kinds) (hopen : .textEnd ∉ kinds) :
    l.isDone = false := by
  subst h
  cases htokens : l.tokens with
  | nil => simp [isDone, htokens]
  | cons token tokens =>
    have hkind : token.kind ≠ .textEnd := by
      rintro hkind
      exact hopen (by simp [htokens, hkind])
    simp [isDone, htokens, hkind]

theorem Advances.step (hkinds : l.tokens.map Token.kind = kinds)
    (hopen : .textEnd ∉ kinds) (h : l.next = some l') :
    Advances 1 l l' := by
  intro fuel
  rw [run, isDone_of_notMem hkinds hopen, h]
  simp

end Lexer

structure Field where
  name : List Char
  value : List Char
  plain : Bool
  text : String

namespace Field

def line (field : Field) : List Char := field.name ++ ':' :: ' ' :: field.value

def kinds (field : Field) : List TokenKind :=
  [.key, .scalar true (.ofList field.name), .value, .scalar field.plain field.text]

/-- The name is read as a key, and the value as the text. -/
structure Reads (field : Field) : Prop where
  name : Lexer.IsName field.name
  value : Lexer.ReadsValue field.value field.plain field.text
  printed : ∀ c ∈ field.value, isPrintable c = true

theorem Reads.isPrintable {field : Field} (h : field.Reads) :
    ∀ c ∈ field.line, isPrintable c = true := by
  have hname := h.name.plain
  simp only [allowsPlain, isSimple, Bool.and_eq_true, List.all_eq_true] at hname
  intro c hc
  rw [line, List.mem_append, List.mem_cons, List.mem_cons] at hc
  rcases hc with hc | rfl | rfl | hc
  · exact hname.1.1.1.1.1 c hc
  · rfl
  · rfl
  · exact h.printed c hc

theorem Reads.startsLine {field : Field} (h : field.Reads) : StartsLine (field.line ++ rest) := by
  obtain ⟨c, s, hname⟩ := List.exists_cons_of_ne_nil h.name.nonempty
  have hplain := h.name.plain
  rw [hname] at hplain
  have hstarts := (isPlain_of_allowsPlain hplain).startsLine
    (t := ':' :: ' ' :: (field.value ++ rest))
  simpa [line, hname] using hstarts

end Field

theorem startsLine_lines {fields : List Field} (h : ∀ field ∈ fields, field.Reads) :
    StartsLine (fields.flatMap Field.line) := by
  cases fields with
  | nil =>
    intro c hc
    cases hc
  | cons field fields => exact (h field List.mem_cons_self).startsLine

namespace Lexer

variable {l : Lexer} {indents : List Nat} {kinds : List TokenKind}

theorem textEnd_notMem_opening (indents : List Nat) : .textEnd ∉ opening indents := by
  rw [opening]
  split_ifs <;> simp

/-- Each line takes three steps, and the first one also opens the block. -/
theorem AtLine.advances_line {field : Field} (hfield : field.Reads)
    (hindents : indents = [] ∨ indents = [0]) (hrest : StartsLine rest)
    (hopen : .textEnd ∉ kinds)
    (h : l.AtLine indents kinds (field.line ++ rest)) :
    ∃ l', Advances 3 l l' ∧
      l'.AtLine [0] ((opening indents ++ field.kinds).reverse ++ kinds) rest := by
  have hsplit : field.line ++ rest = field.name ++ ':' :: ' ' :: (field.value ++ rest) := by
    simp [Field.line]
  have hzero : ∀ column ∈ indents, column = 0 := by
    rcases hindents with rfl | rfl <;> simp
  rw [hsplit] at h
  obtain ⟨l₁, hkey, hcolon⟩ := h.exists_atColon hfield.name hzero
  obtain ⟨l₂, hvalue, hatValue⟩ := hcolon.exists_atValue hindents
  obtain ⟨l₃, hscalar, hline⟩ := hfield.value l₂ _ rest hrest hatValue
  refine ⟨l₃, ?_, ?_⟩
  · have hfirst := Advances.step h.kinds hopen hkey
    have hsecond := Advances.step hcolon.kinds (by simp [hopen]) hvalue
    have hthird := Advances.step hatValue.kinds (by simp [hopen, textEnd_notMem_opening]) hscalar
    exact (hfirst.trans hsecond).trans hthird
  · have hreverse : (opening indents).reverse = opening indents := by
      rw [opening]
      split_ifs <;> rfl
    simpa [Field.kinds, hreverse] using hline

theorem AtLine.advances_lines {fields : List Field} (hfields : ∀ field ∈ fields, field.Reads)
    (hopen : .textEnd ∉ kinds)
    (h : l.AtLine [0] kinds (fields.flatMap Field.line)) :
    ∃ l', Advances (3 * fields.length) l l' ∧
      l'.AtLine [0] ((fields.flatMap Field.kinds).reverse ++ kinds) [] := by
  induction fields generalizing l kinds with
  | nil => exact ⟨l, fun fuel => rfl, h⟩
  | cons field fields ih =>
    obtain ⟨hfield, hfields⟩ := List.forall_mem_cons.mp hfields
    obtain ⟨l₁, hfirst, hline⟩ :=
      h.advances_line hfield (.inr rfl) (startsLine_lines hfields) hopen
    obtain ⟨l₂, hmore, hend⟩ := ih hfields (by simp [opening, Field.kinds, hopen]) hline
    refine ⟨l₂, ?_, ?_⟩
    · have hsteps : 3 * (field :: fields).length = 3 + 3 * fields.length := by
        rw [List.length_cons]
        omega
      rw [hsteps]
      exact hfirst.trans hmore
    · simpa [opening] using hend

/-- At the end of the text the block is ended, and all tokens are settled. -/
theorem AtLine.exists_end (h : l.AtLine [0] kinds []) : ∃ l', l.next = some l' ∧
    l'.isDone = true ∧ l'.settled.map Token.kind = kinds.reverse ++ [.blockEnd, .textEnd] := by
  obtain ⟨line, hskip⟩ := h.cursor
  obtain ⟨cursor, indents, candidate, outer, tokens, count⟩ := l
  obtain ⟨rfl, rfl, rfl, rfl⟩ := h.toIdle
  have hlast : next ⟨cursor, [0], none, [], tokens, count⟩ = some ⟨⟨[], ⟨line, 0, 0⟩, false⟩, [],
      none, [], ⟨.textEnd, ⟨line, 0, 0⟩, ⟨line, 0, 0⟩⟩ :: ⟨.blockEnd, ⟨line, 0, 0⟩, ⟨line, 0, 0⟩⟩ ::
        tokens, count + 2⟩ := by
    simp only at hskip
    simp [next, isBracketed, hskip, dropStale, candidates, lexEnd, close, dropCandidate, addEmpty,
      mark]
  exact ⟨_, hlast, rfl, by simp [settled, candidates]⟩

/-- Each step takes at least one character. -/
theorem steps_le {fields : List Field} (hfields : ∀ field ∈ fields, field.Reads) :
    3 * fields.length ≤ (fields.flatMap Field.line).length := by
  induction fields with
  | nil => exact Nat.le_refl 0
  | cons field fields ih =>
    obtain ⟨hfield, hfields⟩ := List.forall_mem_cons.mp hfields
    have hname := List.length_pos_iff.mpr hfield.name.nonempty
    have hmore := ih hfields
    rw [List.flatMap_cons, List.length_append, List.length_cons, Field.line, List.length_append,
      List.length_cons, List.length_cons]
    omega

end Lexer

/-- The tokens of a record are those of its lines, in one block. -/
theorem kinds_tokensOf {field : Field} {fields : List Field}
    (hfields : ∀ f ∈ field :: fields, f.Reads) :
    (tokensOf ((field :: fields).flatMap Field.line)).map Token.kind =
      .blockMapping :: ((field :: fields).flatMap Field.kinds ++ [.blockEnd, .textEnd]) := by
  have hsteps := Lexer.steps_le hfields
  have hstart : (Lexer.ofText ((field :: fields).flatMap Field.line)).AtLine [] []
      (field.line ++ fields.flatMap Field.line) := by
    refine ⟨⟨rfl, rfl, rfl, rfl⟩, 0, ?_⟩
    exact skipFrom_startsLine (startsLine_lines hfields) _ _
  obtain ⟨hfield, hfields⟩ := List.forall_mem_cons.mp hfields
  obtain ⟨l₁, hfirst, hline⟩ :=
    hstart.advances_line hfield (.inl rfl) (startsLine_lines hfields) (by simp)
  obtain ⟨l₂, hmore, hend⟩ := hline.advances_lines hfields (by simp [Lexer.opening, Field.kinds])
  obtain ⟨l₃, hlast, hdone, hsettled⟩ := hend.exists_end
  have hfinish := Lexer.Advances.step hend.kinds (by simp [Lexer.opening, Field.kinds]) hlast
  obtain ⟨fuel, hfuel⟩ : ∃ fuel, ((field :: fields).flatMap Field.line).length + 2 =
      fuel + (3 + 3 * fields.length + 1) := by
    refine ⟨((field :: fields).flatMap Field.line).length + 2 - (3 + 3 * fields.length + 1), ?_⟩
    rw [List.length_cons] at hsteps
    omega
  have hrun : Lexer.run fuel l₃ = l₃.settled := by
    cases fuel with
    | zero => rfl
    | succ fuel => rw [Lexer.run, if_pos hdone]
  rw [tokensOf, hfuel, ((hfirst.trans hmore).trans hfinish) fuel, hrun, hsettled]
  simp [Lexer.opening]

end FakeData.Yaml
