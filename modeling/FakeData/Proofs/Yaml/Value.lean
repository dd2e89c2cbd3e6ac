import FakeData.Proofs.Yaml.Block
import FakeData.Proofs.Yaml.Escape
import FakeData.Yaml.Token.Lexer

/-!
# Values that are read back

After a key and its colon a value in any style is one token, and the lexer comes to the beginning of
the next line.
-/
namespace FakeData.Yaml

variable {c : Char} {s t name value rest : List Char} {mark : Mark} {fresh : Bool}

/-! ## White space -/

theorem skipFrom_startsLine (h : StartsLine s) (mark : Mark) (fresh : Bool) :
    Cursor.skipFrom false false fresh s mark = ⟨s, mark, fresh⟩ := by
  cases s with
  | nil => rfl
  | cons c s =>
    obtain ⟨hblank, hbreak, hcomment, horder⟩ := h c rfl
    obtain ⟨hspace, htab⟩ := isBlank_eq_false_iff.mp hblank
    simp [Cursor.skipFrom, hbreak, hcomment, hspace, htab, horder]

theorem skipFrom_space (h : StartsLine s) (mark : Mark) :
    Cursor.skipFrom false false false (' ' :: s) mark = ⟨s, mark.past ' ', false⟩ := by
  have hbreak : isBreak ' ' = false := rfl
  simp [Cursor.skipFrom, hbreak, skipFrom_startsLine h]

theorem skipFrom_break (h : StartsLine s) (mark : Mark) :
    Cursor.skipFrom false false false ('\n' :: s) mark = ⟨s, mark.down, true⟩ := by
  have hbreak : isBreak '\n' = true := rfl
  simp [Cursor.skipFrom, hbreak, skipFrom_startsLine h]

theorem IsPlain.startsLine (h : IsPlain c s) : StartsLine (c :: s ++ t) := by
  intro d hd
  obtain rfl : c = d := by simpa using hd
  refine ⟨h.first, h.unbroken c List.mem_cons_self, ?_,
    ne_of_isPrintable (h.printable c List.mem_cons_self) rfl⟩
  rintro rfl
  cases h.indicator

namespace Lexer

variable {l l' : Lexer} {indents : List Nat} {kinds : List TokenKind}

/-! ## Steps -/

/-- No token may turn out to be a key, and no bracket is open. -/
structure Idle (l : Lexer) (indents : List Nat) (kinds : List TokenKind) : Prop where
  candidate : l.candidate = none
  outer : l.outer = []
  indents : l.indents = indents
  kinds : l.tokens.map Token.kind = kinds

theorem isBracketed_of_outer (h : l.outer = []) : l.isBracketed = false := by
  simp [isBracketed, h]

/-- Without candidates there is nothing to give up. -/
theorem dropStale_of_none (hcandidate : l.candidate = none) (houter : l.outer = []) :
    l.dropStale = some l := by
  obtain ⟨cursor, indents, candidate, outer, tokens, count⟩ := l
  simp only at hcandidate houter
  subst hcandidate houter
  simp [dropStale, candidates]

/-- A candidate on the same line is kept while it is not too long. -/
theorem dropStale_of_some {candidate : Candidate} (hcandidate : l.candidate = some candidate)
    (houter : l.outer = []) (hstale : candidate.isStale l.mark = false) : l.dropStale = some l := by
  obtain ⟨cursor, indents, candidate, outer, tokens, count⟩ := l
  simp only [mark] at hcandidate houter hstale
  subst hcandidate houter
  simp [dropStale, candidates, mark, hstale]

/-- Blocks that do not reach beyond a column are not ended there. -/
theorem close_of_le (hindents : ∀ column ∈ l.indents, column ≤ l.mark.column) :
    l.close (l.mark.column < ·) = l := by
  obtain ⟨cursor, indents, candidate, outer, tokens, count⟩ := l
  rw [close]
  split
  · rfl
  · cases indents with
    | nil => rfl
    | cons column indents =>
      have hle : ¬cursor.mark.column < column := Nat.not_lt.mpr (hindents column List.mem_cons_self)
      simp [mark, hle]

/-- A token is made of what comes after the white space. -/
theorem next_eq (houter : l.outer = []) (hindents : ∀ column ∈ l.indents, column = 0)
    (hskip : Cursor.skip false l.cursor = ⟨c :: s, mark, fresh⟩)
    (hstale : dropStale { l with cursor := ⟨c :: s, mark, fresh⟩ } =
      some { l with cursor := ⟨c :: s, mark, fresh⟩ }) :
    l.next = (lexFrom { l with cursor := ⟨c :: s, mark, fresh⟩ } c s).bind dropStale := by
  have hclose := @close_of_le { l with cursor := ⟨c :: s, mark, fresh⟩ } fun column h => by
    rw [hindents column h]
    exact Nat.zero_le _
  rw [next, isBracketed_of_outer houter, hskip, hstale, Option.bind_some]
  dsimp only
  rw [hclose]

theorem dropCandidate_of_none (h : l.candidate = none) : l.dropCandidate = some l := by
  obtain ⟨cursor, indents, candidate, outer, tokens, count⟩ := l
  simp only at h
  subst h
  simp [dropCandidate]

/-! ## Scalars -/

/-- A text without need of quotes is read as such, and not as a sign. -/
theorem lexFrom_plain (h : IsPlain c s) (houter : l.outer = [])
    (hmark : l.mark.column ≠ 0 ∨ isSeparator (c :: s ++ t) = false) :
    l.lexFrom c (s ++ t) = l.lexPlain := by
  have hindicator := h.indicator
  simp only [isIndicator, isBracketSign, Bool.or_eq_false_iff, beq_eq_false_iff_ne] at hindicator
  have hseparator : ¬(l.mark.column = 0 ∧ isSeparator (c :: (s ++ t)) = true) := by
    rintro ⟨hcolumn, htrue⟩
    rcases hmark with hmark | hmark
    · exact hmark hcolumn
    · rw [List.cons_append, htrue] at hmark
      cases hmark
  have hsign : ∀ d, d = '?' ∨ d = ':' ∨ d = '-' → ¬(c = d ∧ wordEnds (s ++ t) = true) := by
    rintro d hd ⟨rfl, hends⟩
    rw [wordEnds_append (h.sign hd) t] at hends
    cases hends
  have hstarts : startsPlain false (c :: (s ++ t)) = true := by
    rw [startsPlain]
    split_ifs with hdash hmarked
    · simp [wordEnds_append (h.sign (.inr (.inr hdash))) t]
    · have hends : wordEnds s = false := by
        rcases hmarked with hc | hc
        · exact h.sign (.inl hc)
        · exact h.sign (.inr (.inl hc))
      simp [wordEnds_append hends t]
    · simp [h.indicator, h.first, h.unbroken c List.mem_cons_self]
  have hdash := hsign '-' (.inr (.inr rfl))
  have hquestion := hsign '?' (.inl rfl)
  have hcolon := hsign ':' (.inr (.inl rfl))
  rw [lexFrom, if_neg (by simp [hindicator]), if_neg hseparator]
  simp only [isBracketed_of_outer houter, Bool.false_or, hdash, hquestion, hcolon, hindicator,
    hstarts, if_false, if_true, or_self, false_and]

theorem lexFrom_quote (hc : c = '\'' ∨ c = '"') : l.lexFrom c s = l.lexQuoted := by
  have hseparator : isSeparator (c :: s) = false := by
    refine isSeparator_cons ?_ ?_ s <;> rintro rfl <;> simp at hc
  rcases hc with rfl | rfl <;> simp [lexFrom, hseparator]

theorem lexFrom_bar (houter : l.outer = []) : l.lexFrom '|' s = l.lexBlock := by
  have hseparator : isSeparator ('|' :: s) = false := isSeparator_cons (by decide) (by decide) s
  simp [lexFrom, hseparator, isBracketed_of_outer houter]

theorem lexFrom_colon (houter : l.outer = []) (hends : wordEnds s = true) :
    l.lexFrom ':' s = l.lexColon := by
  have hseparator : isSeparator (':' :: s) = false := isSeparator_cons (by decide) (by decide) s
  simp [lexFrom, hseparator, isBracketed_of_outer houter, hends]

/-! ## Values -/

/-- The lexer has come to the beginning of a line, where a key may stand. -/
structure AtLine (l : Lexer) (indents : List Nat) (kinds : List TokenKind) (rest : List Char) :
    Prop extends Idle l indents kinds where
  cursor : ∃ line, Cursor.skip false l.cursor = ⟨rest, ⟨line, 0, 0⟩, true⟩

/-- The lexer has come to the space between a colon and a value. -/
structure AtValue (l : Lexer) (kinds : List TokenKind) (rest : List Char) : Prop
    extends Idle l [0] kinds where
  cursor : ∃ mark, mark.column ≠ 0 ∧ l.cursor = ⟨' ' :: rest, mark, false⟩

/-- Wherever the value stands as that of a key, it is one token with this text. -/
def ReadsValue (value : List Char) (plain : Bool) (text : String) : Prop :=
  ∀ (l : Lexer) (kinds : List TokenKind) (rest : List Char), StartsLine rest →
    l.AtValue kinds (value ++ rest) →
    ∃ l', l.next = some l' ∧ l'.AtLine [0] (.scalar plain text :: kinds) rest

/-- A value is read from its first character on, where no key may start. -/
theorem AtValue.exists_next (h : l.AtValue kinds (c :: s)) (hc : StartsLine (c :: s)) :
    ∃ (l' : Lexer) (mark : Mark), l'.Idle [0] kinds ∧ mark.column ≠ 0 ∧
      l'.cursor = ⟨c :: s, mark, false⟩ ∧ l.next = (l'.lexFrom c s).bind dropStale := by
  obtain ⟨mark, -, hcursor⟩ := h.cursor
  refine ⟨{ l with cursor := ⟨c :: s, mark.past ' ', false⟩ }, mark.past ' ',
    ⟨h.candidate, h.outer, h.indents, h.kinds⟩, Nat.succ_ne_zero _, rfl, next_eq h.outer ?_ ?_ ?_⟩
  · simp [h.indents]
  · rw [hcursor, Cursor.skip]
    exact skipFrom_space hc mark
  · exact dropStale_of_none h.candidate h.outer

/-- The scalar is added, and the next line comes after it. -/
theorem Idle.exists_atLine {plain : Bool} {text : List Char} {after : Cursor}
    (h : l.Idle indents kinds)
    (hafter : ∃ line, Cursor.skip false after = ⟨rest, ⟨line, 0, 0⟩, true⟩) :
    ∃ l', (l.addScalar plain (some (text, after))).bind dropStale = some l' ∧
      l'.AtLine indents (.scalar plain (.ofList text) :: kinds) rest := by
  refine ⟨_, dropStale_of_none h.candidate h.outer, ?_⟩
  exact ⟨⟨h.candidate, h.outer, h.indents, by simp [addTo, h.kinds]⟩, hafter⟩

theorem offer_of_not_fresh (h : l.cursor.fresh = false) : l.offer = some l := by
  simp [offer, h]

/-- After a scalar the line is ended by a break. -/
theorem skip_lineEnd (hrest : StartsLine rest) (mark : Mark) :
    ∃ line, Cursor.skip false ⟨'\n' :: rest, mark, false⟩ = ⟨rest, ⟨line, 0, 0⟩, true⟩ :=
  ⟨mark.line + 1, skipFrom_break hrest mark⟩

/-- After a scalar that took the break with it the next line comes at once. -/
theorem skip_lineStart (hrest : StartsLine rest) (line : Nat) :
    ∃ line', Cursor.skip false ⟨rest, ⟨line, 0, 0⟩, true⟩ = ⟨rest, ⟨line', 0, 0⟩, true⟩ :=
  ⟨line, skipFrom_startsLine hrest ⟨line, 0, 0⟩ true⟩

theorem readsValue_plain (h : IsPlain c s) :
    ReadsValue (writeIn .plain (c :: s)) true (.ofList (c :: s)) := by
  intro l kinds rest hrest hl
  have hvalue : writeIn .plain (c :: s) ++ rest = c :: (s ++ '\n' :: rest) := by
    simp [writeIn]
  rw [hvalue] at hl
  obtain ⟨l', mark, hidle, hmark, hcursor, hnext⟩ := hl.exists_next h.startsLine
  have hcolumn : l'.mark.column ≠ 0 := by rwa [Lexer.mark, hcursor]
  have hread : readPlain l'.isBracketed l'.partIndent l'.cursor =
      some (c :: s, ⟨rest, ((c :: s).foldl Mark.past mark).down, true⟩) := by
    have hsplit : c :: (s ++ '\n' :: rest) = c :: s ++ '\n' :: rest := rfl
    rw [isBracketed_of_outer hidle.outer, partIndent, hidle.indents, hcursor, readPlain, hsplit,
      h.plainFrom (.inl hmark), plainFrom_lineEnd hrest (Nat.succ_pos 0)]
    simp
  rw [hnext, lexFrom_plain h hidle.outer (.inl hcolumn), lexPlain,
    offer_of_not_fresh (by rw [hcursor]), Option.bind_some, hread]
  exact hidle.exists_atLine (skip_lineStart hrest _)

/-- Between quotes a value is read as the reader of its kind reads it. -/
theorem readsValue_quoted {quote : Char} {text : List Char} (hquote : quote = '\'' ∨ quote = '"')
    (hread : ∀ rest mark fresh, mark.column ≠ 0 → ∃ mark',
      readQuoted ⟨quote :: s ++ '\n' :: rest, mark, fresh⟩ =
        some (text, ⟨'\n' :: rest, mark', false⟩)) :
    ReadsValue (quote :: s ++ ['\n']) false (.ofList text) := by
  intro l kinds rest hrest hl
  have hvalue : quote :: s ++ ['\n'] ++ rest = quote :: (s ++ '\n' :: rest) := by simp
  have hstarts : StartsLine (quote :: (s ++ '\n' :: rest)) := by
    intro d hd
    obtain rfl : quote = d := by simpa using hd
    rcases hquote with rfl | rfl <;> decide
  rw [hvalue] at hl
  obtain ⟨l', mark, hidle, hmark, hcursor, hnext⟩ := hl.exists_next hstarts
  obtain ⟨mark', hread⟩ := hread rest mark false hmark
  rw [hnext, lexFrom_quote hquote, lexQuoted, offer_of_not_fresh (by rw [hcursor]),
    Option.bind_some, hcursor, ← List.cons_append, hread]
  exact hidle.exists_atLine (skip_lineEnd hrest mark')

theorem readsValue_single (h : allowsSingle s = true) (hline : '\n' ∉ s) :
    ReadsValue (writeIn .single s) false (.ofList s) := by
  simp only [allowsSingle, isSimple, Bool.and_eq_true, Bool.not_eq_true', List.all_eq_true] at h
  obtain ⟨⟨hprint, hbefore⟩, hafter⟩ := h
  have hvalue : writeIn .single s = '\'' :: (singleBody false s ++ ['\'']) ++ ['\n'] := by
    simp [writeIn]
  rw [hvalue]
  refine readsValue_quoted (.inl rfl) ?_
  intro rest mark fresh hmark
  have hcolumn : (mark.right 1).column ≠ 0 := Nat.succ_ne_zero _
  have hfits : Gap.none.Fits s := .inl rfl
  have hnewline : ∀ d ∈ ('\n' :: rest).head?, d ≠ '\'' := by simp
  obtain ⟨mark', hread⟩ := singleFrom_body hprint hline hbefore hafter hfits
    (fun _ => hcolumn) hnewline
  refine ⟨mark', ?_⟩
  simpa [readQuoted, Gap.none, Gap.isBroken, Gap.text] using hread

theorem readsValue_double (s : List Char) : ReadsValue (writeIn .double s) false (.ofList s) := by
  have hvalue : writeIn .double s = '"' :: (doubleBody s ++ ['"']) ++ ['\n'] := by
    simp [writeIn]
  rw [hvalue]
  refine readsValue_quoted (.inr rfl) ?_
  intro rest mark fresh hmark
  have hcolumn : (mark.right 1).column ≠ 0 := Nat.succ_ne_zero _
  obtain ⟨mark', hread⟩ := @doubleFrom_body _ [] s ('\n' :: rest) hcolumn
  refine ⟨mark', ?_⟩
  simpa [readQuoted, Gap.none] using hread

theorem readsValue_literal (hs : s ≠ []) (hprint : ∀ c ∈ s, isPrintable c = true) :
    ReadsValue (writeIn .literal s) false (.ofList s) := by
  intro l kinds rest hrest hl
  have hvalue : writeIn .literal s ++ rest =
      '|' :: (literalSigns s ++ '\n' :: literalLines true s ++ rest) := by
    simp [writeIn]
  have hstarts : StartsLine ('|' :: (literalSigns s ++ '\n' :: literalLines true s ++ rest)) := by
    intro d hd
    obtain rfl : '|' = d := by simpa using hd
    decide
  rw [hvalue] at hl
  obtain ⟨l', mark, hidle, hmark, hcursor, hnext⟩ := hl.exists_next hstarts
  obtain ⟨line, hread⟩ := readBlock_literal hs hprint hrest mark false
  rw [hnext, lexFrom_bar hidle.outer, lexBlock, dropCandidate_of_none hidle.candidate,
    Option.bind_some, partIndent, hidle.indents, hcursor, ← hvalue, hread]
  exact hidle.exists_atLine (skip_lineStart hrest line)

/-- Between quotes any text in one line is read back. -/
theorem readsValue_inQuotes {text : String} (hline : '\n' ∉ text.toList) :
    ReadsValue (writeIn (if allowsSingle text.toList then .single else .double) text.toList) false
      text := by
  split_ifs with hsingle
  · simpa using readsValue_single hsingle hline
  · simpa using readsValue_double text.toList

/-- In whatever style a text is written, it is read back. Without quotes it means itself. -/
theorem exists_readsValue (text : String) : ∃ plain, ReadsValue (writeText text) plain text ∧
    (plain = true → meaning text = .text) := by
  rw [writeText, styleOf]
  by_cases hline : '\n' ∈ text.toList
  · refine ⟨false, ?_, by simp⟩
    have hs : text.toList ≠ [] := List.ne_nil_of_mem hline
    by_cases hliteral : allowsLiteral text.toList = true
    · have hprint := hliteral
      simp only [allowsLiteral, isSimple, Bool.and_eq_true, List.all_eq_true] at hprint
      simpa [hline, hliteral] using readsValue_literal hs hprint.1.1
    · simpa [hline, hliteral] using readsValue_double text.toList
  · by_cases hneeds : needsQuotes text = true
    · exact ⟨false, by simpa [hline, hneeds] using readsValue_inQuotes hline, by simp⟩
    · by_cases hplain : allowsPlain text.toList = true
      · have hmeaning : meaning text = .text := by
          simp only [needsQuotes, Bool.or_eq_true, bne_iff_ne, ne_eq, not_or, not_not] at hneeds
          exact hneeds.1
        refine ⟨true, ?_, fun _ => hmeaning⟩
        cases htext : text.toList with
        | nil =>
          obtain rfl : text = "" := by simpa using htext
          cases hmeaning
        | cons c s =>
          rw [htext] at hline hplain
          rw [List.mem_cons] at hline
          have hread := readsValue_plain (isPlain_of_allowsPlain hplain)
          rw [← htext, String.ofList_toList] at hread
          simpa [hline, hneeds, htext, hplain] using hread
      · exact ⟨false, by simpa [hline, hneeds, hplain] using readsValue_inQuotes hline, by simp⟩

end Lexer

end FakeData.Yaml
