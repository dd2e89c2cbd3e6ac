import FakeData.Yaml.Quoted
import FakeData.Yaml.Writer
import Mathlib.Algebra.GroupWithZero.Nat
import Mathlib.Data.List.Basic
import Mathlib.Tactic.SplitIfs

/-!
# Scalars that are read back

A text that is written on one line, without quotes or between quotes of either kind, is read back
as it was, and the reader stops where the text was ended.
-/
namespace FakeData.Yaml

variable {a c : Char} {s t g rest : List Char} {mark : Mark} {indent : Nat}

/-! ## Characters -/

theorem isBlank_iff : isBlank c = true ↔ c = ' ' ∨ c = '\t' := by
  simp [isBlank]

theorem ne_of_isPrintable {d : Char} (h : isPrintable c = true) (hd : isPrintable d = false) :
    c ≠ d := by
  rintro rfl
  rw [hd] at h
  cases h

/-- Of the blanks only a space is printed. -/
theorem isBlank_of_isPrintable (h : isPrintable c = true) : isBlank c = (c == ' ') := by
  have htab : c ≠ '\t' := ne_of_isPrintable h rfl
  simp [isBlank, htab]

theorem isBlank_eq_false_iff : isBlank c = false ↔ c ≠ ' ' ∧ c ≠ '\t' := by
  simp [isBlank]

theorem isBreak_of_isBlank (h : isBlank c = true) : isBreak c = false := by
  rcases isBlank_iff.mp h with rfl | rfl <;> rfl

theorem isSeparator_cons (hdash : c ≠ '-') (hpoint : c ≠ '.') (s : List Char) :
    isSeparator (c :: s) = false := by
  rw [isSeparator.eq_def]
  split <;> simp_all

theorem isSeparator_of_isBreak (h : isBreak c = true) (s : List Char) :
    isSeparator (c :: s) = false := by
  refine isSeparator_cons ?_ ?_ s <;> rintro rfl <;> cases h

theorem isSeparator_of_isBlank (h : isBlank c = true) (s : List Char) :
    isSeparator (c :: s) = false := by
  refine isSeparator_cons ?_ ?_ s <;> rintro rfl <;> cases h

/-- What stands after a text does not make a word of it go on. -/
theorem wordEnds_append (h : wordEnds s = false) (t : List Char) : wordEnds (s ++ t) = false := by
  cases s with
  | nil => cases h
  | cons c s => exact h

/-! ## Marks -/

theorem line_foldl_past (s : List Char) (mark : Mark) :
    (s.foldl Mark.past mark).line = mark.line := by
  induction s generalizing mark with
  | nil => rfl
  | cons c s ih => exact ih _

theorem column_foldl_past (s : List Char) (mark : Mark) :
    (s.foldl Mark.past mark).column = mark.column + s.length := by
  induction s generalizing mark with
  | nil => rfl
  | cons c s ih =>
    rw [List.foldl_cons, ih, Mark.past, List.length_cons]
    dsimp only
    omega

theorem offset_foldl_past (s : List Char) (mark : Mark) :
    (s.foldl Mark.past mark).offset = mark.offset + (s.map Char.utf8Size).sum := by
  induction s generalizing mark with
  | nil => rfl
  | cons c s ih =>
    rw [List.foldl_cons, ih, Mark.past, List.map_cons, List.sum_cons]
    dsimp only
    omega

/-! ## Without quotes -/

theorem hasInnerSign_cons (h : hasInnerSign (a :: c :: s) = false) :
    (c = ':' → wordEnds s = false) ∧ (c = '#' → isBlank a = false) ∧
      hasInnerSign (c :: s) = false := by
  simp only [hasInnerSign, Bool.or_eq_false_iff, Bool.and_eq_false_iff, beq_eq_false_iff_ne] at h
  obtain ⟨⟨hcolon, hsign⟩, h⟩ := h
  exact ⟨fun hc => hcolon.resolve_left (not_not.mpr hc),
    fun hc => (hsign.resolve_left (not_not.mpr hc)).1, h⟩

/-- A word goes on unless there is a sign, a separator or a line break before it. -/
theorem endsPlain_blanks (hcolon : c = ':' → wordEnds s = false) (hnumber : g ≠ [] → c ≠ '#')
    (hmark : mark.column ≠ 0 ∨ isSeparator (c :: s) = false) :
    endsPlain false indent (.blanks g) mark c s = false := by
  have hseparator : (mark.column == 0 && isSeparator (c :: s)) = false := by
    rcases hmark with hmark | hmark <;> simp [hmark]
  have hcomment : (Gap.blanks g != .none && c == '#') = false := by
    by_cases hg : g = []
    · simp [hg, Gap.none]
    · simp [hnumber hg]
  have hcolon : (c == ':' && wordEnds s) = false := by
    by_cases hc : c = ':'
    · simp [hcolon hc]
    · simp [hc]
  simp [endsPlain, Gap.isBroken, hseparator, hcomment, hcolon]

/-- Words and the blanks between them are read as they stand, whatever the text after them is. -/
theorem plainFrom_append (hbreak : ∀ c ∈ s, isBreak c = false)
    (hlast : ∀ c ∈ (g ++ s).getLast?, isBlank c = false) (hg : ∀ c ∈ g, isBlank c = true)
    (ha : g ≠ [] → isBlank a = true) (hsign : hasInnerSign (a :: s) = false)
    (hmark : mark.column ≠ 0 ∨ isSeparator (s ++ t) = false) :
    plainFrom false indent (.blanks g) (s ++ t) mark =
      (plainFrom false indent .none t (s.foldl Mark.past mark)).map fun (text, after) =>
        (g ++ s ++ text, after) := by
  induction s generalizing g a mark with
  | nil =>
    have hnil : g = [] := by
      by_contra hne
      have hmem := List.getLast_mem hne
      have hblank := hg _ hmem
      rw [hlast (g.getLast hne) (by simp [List.getLast?_eq_getLast_of_ne_nil hne])] at hblank
      cases hblank
    subst hnil
    rw [List.nil_append, List.foldl_nil, ← Gap.none]
    cases plainFrom false indent .none t mark <;> rfl
  | cons c s ih =>
    obtain ⟨hc, hbreak⟩ := List.forall_mem_cons.mp hbreak
    obtain ⟨hcolon, hnumber, hsign⟩ := hasInnerSign_cons hsign
    have hpast : (mark.past c).column ≠ 0 := Nat.succ_ne_zero _
    rw [List.cons_append, plainFrom, if_neg (by simp [hc])]
    by_cases hblank : isBlank c = true
    · have hg : ∀ d ∈ g ++ [c], isBlank d = true := by
        intro d hd
        rcases List.mem_append.mp hd with hd | hd
        · exact hg d hd
        · rwa [List.mem_singleton.mp hd]
      rw [List.append_cons] at hlast ⊢
      rw [if_pos hblank, if_neg (by simp [Gap.isBroken]), Gap.addBlank, List.foldl_cons]
      exact ih hbreak hlast hg (fun _ => hblank) hsign (.inl hpast)
    · have hnone : g ≠ [] → c ≠ '#' := by
        intro hgap hc
        rw [hnumber hc] at ha
        cases ha hgap
      have hends : endsPlain false indent (.blanks g) mark c (s ++ t) = false :=
        endsPlain_blanks (fun hc => wordEnds_append (hcolon hc) t) hnone hmark
      have hlast : ∀ d ∈ ([] ++ s).getLast?, isBlank d = false := by
        intro d hd
        refine hlast d ?_
        cases s with
        | nil => cases hd
        | cons e s => simpa [List.getLast?_append, List.getLast?_cons_cons] using hd
      rw [if_neg hblank, if_neg (by simp [hends]), if_neg (by simp),
        Gap.none, ih hbreak hlast (by simp) (by simp) hsign (.inl hpast), Option.map_map,
        List.foldl_cons]
      congr 1
      funext got
      simp [Gap.text]

theorem isIndicator_of_not_startsLikeOther (h : startsLikeOther (c :: s) = false) :
    isIndicator c = false ∧ (c = '?' ∨ c = ':' ∨ c = '-' → wordEnds s = false) := by
  rw [startsLikeOther.eq_def] at h
  split at h
  · rename_i heq
    cases heq
  · cases h
  · cases h
  · rename_i heq
    cases heq
    rw [Bool.or_eq_false_iff, Bool.and_eq_false_iff] at h
    refine ⟨h.1, fun hc => h.2.resolve_left ?_⟩
    rcases hc with rfl | rfl | rfl <;> simp

/-- What holds of a text that needs no quotes. -/
structure IsPlain (c : Char) (s : List Char) : Prop where
  printable : ∀ d ∈ c :: s, isPrintable d = true
  unbroken : ∀ d ∈ c :: s, isBreak d = false
  last : ∀ d ∈ (c :: s).getLast?, isBlank d = false
  first : isBlank c = false
  indicator : isIndicator c = false
  sign : c = '?' ∨ c = ':' ∨ c = '-' → wordEnds s = false
  inner : hasInnerSign (c :: s) = false

theorem isPlain_of_allowsPlain (h : allowsPlain (c :: s) = true) : IsPlain c s := by
  simp only [allowsPlain, isSimple, hasLooseEnd, Bool.and_eq_true, Bool.not_eq_true',
    List.all_eq_true, List.any_eq_false, Bool.or_eq_false_iff] at h
  obtain ⟨⟨⟨⟨⟨printable, -⟩, unbroken⟩, first, last⟩, hstart⟩, inner⟩ := h
  obtain ⟨indicator, sign⟩ := isIndicator_of_not_startsLikeOther hstart
  refine ⟨printable, fun d hd => by simpa using unbroken d hd, ?_, ?_, indicator, sign, inner⟩
  · intro d hd
    rw [isBlank_of_isPrintable (printable d (List.mem_of_getLast? hd))]
    rw [Option.mem_def] at hd
    simp only [hd, Option.any_some, Bool.or_eq_false_iff] at last
    exact last.1
  · rw [isBlank_of_isPrintable (printable c List.mem_cons_self)]
    simp only [List.head?_cons, Option.any_some, Bool.or_eq_false_iff] at first
    exact first.1

/-- A text without need of quotes is read up to what follows it. -/
theorem IsPlain.plainFrom (h : IsPlain c s)
    (hmark : mark.column ≠ 0 ∨ isSeparator (c :: s ++ t) = false) :
    plainFrom false indent .none (c :: s ++ t) mark =
      (Yaml.plainFrom false indent .none t ((c :: s).foldl Mark.past mark)).map
        fun (text, after) => (c :: s ++ text, after) := by
  have hsign : hasInnerSign ('x' :: c :: s) = false := by
    have hcolon : (c == ':' && wordEnds s) = false := by
      by_cases hc : c = ':'
      · simp [h.sign (.inr (.inl hc))]
      · simp [hc]
    have hblank : (isBlank 'x' || isBreak 'x') = false := rfl
    rw [hasInnerSign, hcolon, hblank, h.inner]
    simp
  exact plainFrom_append h.unbroken h.last (by simp) (by simp) hsign hmark

/-- Nothing of what may stand between two lines stands here. -/
def StartsLine (rest : List Char) : Prop :=
  ∀ c ∈ rest.head?, isBlank c = false ∧ isBreak c = false ∧ c ≠ '#' ∧ c ≠ '\ufeff'

theorem plainFrom_lineEnd (hrest : StartsLine rest) (hindent : 0 < indent) (mark : Mark) :
    plainFrom false indent .none ('\n' :: rest) mark = some ([], ⟨rest, mark.down, true⟩) := by
  have hnewline : isBreak '\n' = true := rfl
  rw [plainFrom, if_pos hnewline]
  cases rest with
  | nil => rfl
  | cons c rest =>
    obtain ⟨hblank, hbreak, -⟩ := hrest c rfl
    have hcolumn : mark.down.column < indent := hindent
    have hends : endsPlain false indent (Gap.none.addBreak '\n') mark.down c rest = true := by
      simp [endsPlain, Gap.addBreak, Gap.none, Gap.isBroken, hcolumn]
    rw [plainFrom, if_neg (by simp [hbreak]), if_neg (by simp [hblank]), if_pos hends]
    rfl

theorem plainFrom_colon (hends : wordEnds t = true) (mark : Mark) :
    plainFrom false indent .none (':' :: t) mark = some ([], ⟨':' :: t, mark, false⟩) := by
  have hend : endsPlain false indent .none mark ':' t = true := by
    simp [endsPlain, hends]
  rw [plainFrom, if_neg (by decide), if_neg (by decide), if_pos hend]
  rfl

/-! ## Pairs of characters -/

theorem hasPair_cons {first second : Char → Bool} (h : hasPair first second (c :: s) = false) :
    (first c = true → ∀ d ∈ s.head?, second d = false) ∧ hasPair first second s = false := by
  cases s with
  | nil => simp [hasPair]
  | cons d s =>
    simp only [hasPair, Bool.or_eq_false_iff, Bool.and_eq_false_iff] at h
    refine ⟨fun hc => ?_, h.2⟩
    simpa [hc] using h.1

/-! ## Between single quotes -/

section

variable {gap : Gap}

theorem singleFrom_blank (h : isBlank c = true) :
    singleFrom gap (c :: s) mark = singleFrom (gap.addBlank c) s (mark.past c) := by
  have hquote : c ≠ '\'' := by
    rintro rfl
    cases h
  have hbreak := isBreak_of_isBlank h
  rw [singleFrom.eq_def]
  split
  · simp_all
  · simp_all
  · rename_i heq
    cases heq
    simp [isSeparator_of_isBlank h, hquote, hbreak, h]

theorem singleFrom_break (h : isBreak c = true) :
    singleFrom gap (c :: s) mark = singleFrom (gap.addBreak c) s mark.down := by
  have hquote : c ≠ '\'' := by
    rintro rfl
    cases h
  rw [singleFrom.eq_def]
  split
  · simp_all
  · simp_all
  · rename_i heq
    cases heq
    simp [isSeparator_of_isBreak h, hquote, h]

theorem singleFrom_other (hquote : c ≠ '\'') (hbreak : isBreak c = false)
    (hblank : isBlank c = false) (hmark : mark.column ≠ 0) :
    singleFrom gap (c :: s) mark =
      prepend (gap.text ++ [c]) (singleFrom .none s (mark.past c)) := by
  rw [singleFrom.eq_def]
  split
  · simp_all
  · simp_all
  · rename_i heq
    cases heq
    simp [hquote, hbreak, hblank, hmark]

theorem singleFrom_quote :
    singleFrom gap ('\'' :: '\'' :: s) mark =
      prepend (gap.text ++ ['\'']) (singleFrom .none s (mark.right 2)) := by
  rw [singleFrom]

theorem singleFrom_close (h : ∀ d ∈ t.head?, d ≠ '\'') :
    singleFrom gap ('\'' :: t) mark = some (gap.text, ⟨t, mark.right 1, false⟩) := by
  have hseparator : isSeparator ('\'' :: t) = false :=
    isSeparator_cons (by decide) (by decide) t
  rw [singleFrom.eq_def]
  split
  · simp_all
  · simp_all
  · rename_i heq
    cases heq
    simp [hseparator]

/-- The white space before a text that is still to be read can be told from its own. -/
def Gap.Fits : Gap → List Char → Prop
  | .blanks text, s => text = [] ∨ ∀ c ∈ s.head?, isBreak c = false
  | .folded first _, s => first ≠ '\n' ∧ ∀ c ∈ s.head?, c ≠ ' '
  | .joined _, _ => False

theorem Gap.Fits.addBreak (h : gap.Fits (c :: s)) (hc : isBreak c = true) (hne : c ≠ '\n')
    (hspace : ∀ d ∈ s.head?, d ≠ ' ') :
    (gap.addBreak c).Fits s ∧ (gap.addBreak c).text = gap.text ++ [c] := by
  cases gap with
  | blanks text =>
    rcases h with rfl | h
    · exact ⟨⟨hne, hspace⟩, by simp [Gap.addBreak, Gap.text, hne]⟩
    · rw [h c rfl] at hc
      cases hc
  | folded first more =>
    exact ⟨⟨h.1, hspace⟩, by simp [Gap.addBreak, Gap.text, h.1]⟩
  | joined more => exact h.elim

/-- The indentation of a line does not count. -/
theorem exists_indented (hmark : gap.isBroken = false → mark.column ≠ 0) :
    ∃ mark', mark'.column ≠ 0 ∧ ∀ s,
      singleFrom gap ((if gap.isBroken then [' ', ' '] else []) ++ s) mark =
        singleFrom gap s mark' := by
  cases hbroken : gap.isBroken with
  | false => exact ⟨mark, hmark hbroken, fun s => rfl⟩
  | true =>
    have hkeep : gap.addBlank ' ' = gap := by
      cases gap with
      | blanks text => cases hbroken
      | folded first more => rfl
      | joined more => rfl
    have hblank : isBlank ' ' = true := rfl
    refine ⟨(mark.past ' ').past ' ', Nat.succ_ne_zero _, fun s => ?_⟩
    rw [if_pos rfl, List.cons_append, List.cons_append, List.nil_append, singleFrom_blank hblank,
      hkeep, singleFrom_blank hblank, hkeep]

/-- A character of a word is read as it stands, a quote from two of them. -/
theorem exists_singleChar (hbreak : isBreak c = false) (hblank : isBlank c = false)
    (hmark : mark.column ≠ 0) :
    ∃ mark', mark'.column ≠ 0 ∧ ∀ s,
      singleFrom gap ((if c = '\'' then ['\'', '\''] else [c]) ++ s) mark =
        prepend (gap.text ++ [c]) (singleFrom .none s mark') := by
  by_cases hquote : c = '\''
  · refine ⟨mark.right 2, Nat.succ_ne_zero _, fun s => ?_⟩
    rw [if_pos hquote, List.cons_append, List.cons_append, List.nil_append, singleFrom_quote,
      hquote]
  · refine ⟨mark.past c, Nat.succ_ne_zero _, fun s => ?_⟩
    rw [if_neg hquote, List.singleton_append, singleFrom_other hquote hbreak hblank hmark]

/-- Line breaks other than the usual one are kept between single quotes, unless there are spaces
beside them. -/
theorem singleFrom_body (hprint : ∀ c ∈ s, isPrintable c = true) (hline : '\n' ∉ s)
    (hbefore : hasPair (· == ' ') isBreak s = false)
    (hafter : hasPair isBreak (· == ' ') s = false) (hgap : gap.Fits s)
    (hmark : gap.isBroken = false → mark.column ≠ 0) (ht : ∀ d ∈ t.head?, d ≠ '\'') :
    ∃ mark', singleFrom gap (singleBody gap.isBroken s ++ '\'' :: t) mark =
      some (gap.text ++ s, ⟨t, mark', false⟩) := by
  induction s generalizing gap mark with
  | nil =>
    obtain ⟨mark', -, hindent⟩ := exists_indented hmark
    exact ⟨mark'.right 1, by rw [singleBody, hindent, singleFrom_close ht, List.append_nil]⟩
  | cons c s ih =>
    obtain ⟨hc, hprint'⟩ := List.forall_mem_cons.mp hprint
    obtain ⟨hne, hline'⟩ : c ≠ '\n' ∧ '\n' ∉ s := by simpa [eq_comm] using hline
    obtain ⟨hspace, hbefore'⟩ := hasPair_cons hbefore
    obtain ⟨hbreak, hafter'⟩ := hasPair_cons hafter
    by_cases hcbreak : isBreak c = true
    · have hhead : ∀ d ∈ s.head?, d ≠ ' ' := fun d hd => by simpa using hbreak hcbreak d hd
      obtain ⟨hfits, htext⟩ := hgap.addBreak hcbreak hne hhead
      have hbroken : (gap.addBreak c).isBroken = true := by cases gap <;> rfl
      obtain ⟨mark', hread⟩ := ih hprint' hline' hbefore' hafter' hfits (by simp [hbroken])
      refine ⟨mark', ?_⟩
      rw [singleBody, if_pos hcbreak, List.cons_append, singleFrom_break hcbreak, ← hbroken, hread,
        htext, List.append_assoc, List.singleton_append]
    · by_cases hcspace : c = ' '
      · subst hcspace
        cases gap with
        | blanks text =>
          have hfits : (Gap.blanks (text ++ [' '])).Fits s := .inr (hspace rfl)
          have hpast : (mark.past ' ').column ≠ 0 := Nat.succ_ne_zero _
          obtain ⟨mark', hread⟩ := ih hprint' hline' hbefore' hafter' hfits fun _ => hpast
          have hbody :
              singleBody (Gap.blanks text).isBroken (' ' :: s) = ' ' :: singleBody false s := rfl
          have hblank : isBlank ' ' = true := rfl
          refine ⟨mark', ?_⟩
          rw [hbody, List.cons_append, singleFrom_blank hblank]
          rw [Gap.text, List.append_assoc, List.singleton_append] at hread
          exact hread
        | folded first more => exact absurd rfl (hgap.2 ' ' rfl)
        | joined more => exact hgap.elim
      · have hblank : isBlank c = false := by simp [isBlank_of_isPrintable hc, hcspace]
        have hfits : Gap.none.Fits s := .inl rfl
        rw [Bool.not_eq_true] at hcbreak
        obtain ⟨markIn, hmarkIn, hindent⟩ := exists_indented hmark
        obtain ⟨markOut, hmarkOut, hchar⟩ := @exists_singleChar _ _ gap hcbreak hblank hmarkIn
        obtain ⟨mark', hread⟩ := ih hprint' hline' hbefore' hafter' hfits fun _ => hmarkOut
        have hbody : singleBody gap.isBroken (c :: s) = (if gap.isBroken then [' ', ' '] else []) ++
            ((if c = '\'' then ['\'', '\''] else [c]) ++ singleBody Gap.none.isBroken s) := by
          rw [singleBody, if_neg (by simp [hcbreak]), List.append_assoc]
          rfl
        refine ⟨mark', ?_⟩
        rw [hbody, List.append_assoc, hindent, List.append_assoc, hchar, hread]
        simp [prepend, Gap.none, Gap.text]

end

end FakeData.Yaml
