import FakeData.Proofs.Yaml.Scalar
import FakeData.Yaml.Block

/-!
# Literal blocks that are read back

A text of several lines is written below the key that it belongs to. The header says how its lines
are indented, where they do not show it, and how many line breaks are at its end.
-/
namespace FakeData.Yaml

variable {c : Char} {s front rest : List Char} {line : Nat} {mark : Mark}

/-! ## Line breaks at the end -/

/-- The sign in the header is the one for a text with this end. -/
def Chomping.Suits : Chomping → List Char → Prop
  | .strip, s => ∃ front a, s = front ++ [a] ∧ isBreak a = false
  | .clip, s => ∃ front a b, s = front ++ [a] ++ [b] ∧ isBreak a = false ∧ isBreak b = true
  | .keep, s => ∃ front b, s = front ++ [b] ∧ isBreak b = true

theorem Chomping.Suits.eq_strip {chomping : Chomping} {before : List Char} {a : Char}
    (h : chomping.Suits (before ++ [a])) (ha : isBreak a = false) : chomping = .strip := by
  have hlast : ∀ (front : List Char) (b : Char), before ++ [a] = front ++ [b] →
      isBreak b = false := by
    intro front b hsplit
    obtain rfl : a = b := by simpa using List.append_inj_right' hsplit rfl
    exact ha
  cases chomping with
  | strip => rfl
  | clip =>
    obtain ⟨front, _, b, hsplit, -, hb⟩ := h
    rw [hlast _ b hsplit] at hb
    cases hb
  | keep =>
    obtain ⟨front, b, hsplit, hb⟩ := h
    rw [hlast _ b hsplit] at hb
    cases hb

/-- A text without a line break at its end does not end in line breaks. -/
theorem eq_nil_of_ends {before breaks : List Char} {a : Char}
    (hbreaks : ∀ c ∈ breaks, isBreak c = true) (ha : isBreak a = false)
    (h : front ++ breaks = before ++ [a]) : breaks = [] := by
  rcases List.eq_nil_or_concat' breaks with hnil | ⟨others, b, rfl⟩
  · exact hnil
  · rw [← List.append_assoc] at h
    obtain rfl : b = a := by simpa using List.append_inj_right' h rfl
    rw [hbreaks b (by simp)] at ha
    cases ha

/-- The line breaks that are open come after the characters read so far. -/
structure Seam.Follows (seam : Seam) (front : List Char) : Prop where
  blank : ∀ c ∈ seam.blank, isBreak c = true
  last : front = [] ∧ seam.last = [] ∨ ∃ before a b, front = before ++ [a] ∧
    isBreak a = false ∧ seam.last = [b] ∧ isBreak b = true

namespace Seam.Follows

variable {seam : Seam} {chomping : Chomping}

theorem start : Seam.start.Follows [] where
  blank := by simp [Seam.start]
  last := .inl ⟨rfl, rfl⟩

/-- A line with text ends. -/
theorem ofLine {a b : Char} (ha : isBreak a = false) (hb : isBreak b = true)
    (before : List Char) (indented : Bool) : (⟨[b], [], indented⟩ : Seam).Follows (before ++ [a])
    where
  blank := by simp
  last := .inr ⟨before, a, b, rfl, ha, rfl, hb⟩

/-- A blank line ends. -/
theorem more (h : seam.Follows front) (hc : isBreak c = true) :
    ({ seam with blank := seam.blank ++ [c] } : Seam).Follows front where
  blank := by
    intro d hd
    rcases List.mem_append.mp hd with hd | hd
    · exact h.blank d hd
    · rwa [List.mem_singleton.mp hd]
  last := h.last

theorem isBreak_of_mem (h : seam.Follows front) :
    ∀ c ∈ seam.last ++ seam.blank, isBreak c = true := by
  intro c hc
  rcases List.mem_append.mp hc with hc | hc
  · rcases h.last with ⟨-, hlast⟩ | ⟨_, _, b, _, _, hlast, hb⟩
    · simp [hlast] at hc
    · rw [hlast, List.mem_singleton] at hc
      rwa [hc]
  · exact h.blank c hc

/-- All open line breaks are kept, since the header fits the end of the text. -/
theorem close_eq (h : seam.Follows front)
    (hsuits : chomping.Suits (front ++ (seam.last ++ seam.blank))) :
    seam.close chomping = seam.last ++ seam.blank := by
  have hbreaks := h.isBreak_of_mem
  cases chomping with
  | strip =>
    obtain ⟨before, a, hsplit, ha⟩ := hsuits
    rw [eq_nil_of_ends hbreaks ha hsplit]
    rfl
  | clip =>
    obtain ⟨before, a, b, hsplit, ha, hb⟩ := hsuits
    rcases List.eq_nil_or_concat' seam.blank with hnil | ⟨blank, d, hconcat⟩
    · simp [Seam.close, hnil]
    · rw [hconcat, ← List.append_assoc, ← List.append_assoc, List.append_assoc front] at hsplit
      have hfront := List.append_inj_left' hsplit rfl
      have hinit : ∀ c ∈ seam.last ++ blank, isBreak c = true := by
        intro c hc
        refine hbreaks c ?_
        rw [hconcat, ← List.append_assoc]
        exact List.mem_append_left _ hc
      have hempty := eq_nil_of_ends hinit ha hfront
      rcases h.last with ⟨hnone, -⟩ | ⟨_, _, _, _, _, hlast, _⟩
      · simp [hnone, hempty] at hfront
      · simp [hlast] at hempty
  | keep => rfl

end Seam.Follows

/-! ## Lines -/

theorem blockFrom_lineEnd (header : BlockHeader) (hrest : StartsLine rest) (seam : Seam) :
    blockFrom header 2 false seam rest ⟨line, 0, 0⟩ =
      some (seam.close header.chomping, ⟨rest, ⟨line, 0, 0⟩, true⟩) := by
  cases rest with
  | nil => rfl
  | cons c rest =>
    obtain ⟨hblank, hbreak, -⟩ := hrest c rfl
    obtain ⟨hspace, htab⟩ := isBlank_eq_false_iff.mp hblank
    simp [blockFrom, hbreak, hspace, htab]

section

variable {header : BlockHeader} {seam : Seam}

theorem blockFrom_indent (hmark : mark.column < 2) :
    blockFrom header 2 false seam (' ' :: s) mark =
      blockFrom header 2 false seam s (mark.past ' ') := by
  have hspace : isBreak ' ' = false := rfl
  simp [blockFrom, hspace, hmark]

theorem blockFrom_blankLine (hc : isBreak c = true) :
    blockFrom header 2 false seam (c :: s) mark =
      blockFrom header 2 false { seam with blank := seam.blank ++ [c] } s mark.down := by
  simp [blockFrom, hc]

/-- A line with text begins where the indentation is complete. -/
theorem blockFrom_first (literal : header.literal = true) (hc : isBreak c = false)
    (hmark : mark.column = 2) : blockFrom header 2 false seam (c :: s) mark =
      (blockFrom header 2 true ⟨[], [], isBlank c⟩ s (mark.past c)).map fun (text, after) =>
        (seam.last ++ seam.blank ++ c :: text, after) := by
  simp [blockFrom, hc, hmark, Seam.join, literal]

theorem blockFrom_inside (hc : isBreak c = false) :
    blockFrom header 2 true seam (c :: s) mark =
      (blockFrom header 2 true seam s (mark.past c)).map
        fun (text, after) => (c :: text, after) := by
  simp [blockFrom, hc]

theorem blockFrom_break (hc : isBreak c = true) :
    blockFrom header 2 true seam (c :: s) mark =
      blockFrom header 2 false ⟨[c], [], seam.indented⟩ s mark.down := by
  simp [blockFrom, hc]

/-- Whether a line has begun or not, the rest of the text is read back. -/
theorem blockFrom_lines (literal : header.literal = true) (hrest : StartsLine rest)
    (s : List Char) :
    (∀ before a seam mark, isBreak a = false → header.chomping.Suits (before ++ [a] ++ s) →
      ∃ line, blockFrom header 2 true seam (literalLines false s ++ rest) mark =
        some (s, ⟨rest, ⟨line, 0, 0⟩, true⟩)) ∧
    ∀ front seam line, seam.Follows front →
      header.chomping.Suits (front ++ (seam.last ++ seam.blank ++ s)) →
      ∃ line', blockFrom header 2 false seam (literalLines true s ++ rest) ⟨line, 0, 0⟩ =
        some (seam.last ++ seam.blank ++ s, ⟨rest, ⟨line', 0, 0⟩, true⟩) := by
  induction s with
  | nil =>
    constructor
    · intro before a seam mark ha hsuits
      have hstrip : header.chomping = .strip := by
        rw [List.append_nil] at hsuits
        exact hsuits.eq_strip ha
      have hlines : literalLines false [] ++ rest = '\n' :: rest := rfl
      refine ⟨mark.line + 1, ?_⟩
      rw [hlines, blockFrom_break rfl, Mark.down, blockFrom_lineEnd header hrest, hstrip,
        Seam.close]
    · intro front seam line hseam hsuits
      rw [List.append_nil] at hsuits
      refine ⟨line, ?_⟩
      rw [literalLines, if_pos rfl, List.nil_append, blockFrom_lineEnd header hrest,
        hseam.close_eq hsuits, List.append_nil]
  | cons c s ih =>
    obtain ⟨inside, between⟩ := ih
    constructor
    · intro before a seam mark ha hsuits
      rw [literalLines]
      by_cases hc : isBreak c = true
      · have hfollows := Seam.Follows.ofLine ha hc before seam.indented
        obtain ⟨line, hread⟩ := between _ _ (mark.line + 1) hfollows hsuits
        refine ⟨line, ?_⟩
        rw [if_pos hc, List.cons_append, blockFrom_break hc]
        exact hread
      · rw [Bool.not_eq_true] at hc
        have hsplit : before ++ [a] ++ c :: s = before ++ [a] ++ [c] ++ s := by simp
        rw [hsplit] at hsuits
        obtain ⟨line, hread⟩ := inside (before ++ [a]) c seam (mark.past c) hc hsuits
        refine ⟨line, ?_⟩
        rw [if_neg (by simp [hc]), if_neg (by simp), List.append_assoc, List.singleton_append,
          blockFrom_inside hc, hread]
        rfl
    · intro front seam line hseam hsuits
      rw [literalLines]
      by_cases hc : isBreak c = true
      · have hsplit : seam.last ++ seam.blank ++ c :: s =
            seam.last ++ (seam.blank ++ [c]) ++ s := by simp
        rw [hsplit] at hsuits ⊢
        obtain ⟨line', hread⟩ := between front _ (line + 1) (hseam.more hc) hsuits
        refine ⟨line', ?_⟩
        rw [if_pos hc, List.cons_append, blockFrom_blankLine hc]
        exact hread
      · rw [Bool.not_eq_true] at hc
        have hsplit : front ++ (seam.last ++ seam.blank ++ c :: s) =
            front ++ (seam.last ++ seam.blank) ++ [c] ++ s := by simp
        rw [hsplit] at hsuits
        obtain ⟨line', hread⟩ := inside _ c ⟨[], [], isBlank c⟩
          ((((Mark.mk line 0 0).past ' ').past ' ').past c) hc hsuits
        refine ⟨line', ?_⟩
        rw [if_neg (by simp [hc]), if_pos rfl, List.append_assoc, List.cons_append,
          List.cons_append, List.cons_append, List.nil_append, blockFrom_indent Nat.zero_lt_two,
          blockFrom_indent Nat.one_lt_two, blockFrom_first literal hc rfl, hread]
        rfl

end

/-! ## Blocks -/

def Chomping.sign : Chomping → List Char
  | .strip => ['-']
  | .clip => []
  | .keep => ['+']

theorem takeSigns_sign (chomping : Chomping) (t : List Char) :
    BlockHeader.takeSigns (chomping.sign ++ '\n' :: t) = some (chomping, 0, '\n' :: t) := by
  cases chomping <;> rfl

theorem takeSigns_indent (chomping : Chomping) (t : List Char) :
    BlockHeader.takeSigns ('2' :: (chomping.sign ++ '\n' :: t)) =
      some (chomping, 2, '\n' :: t) := by
  cases chomping <;> rfl

/-- The first character would be taken for indentation or for a line of its own. -/
def hidesIndent (s : List Char) : Bool := s.head?.any fun c => c == ' ' || isBreak c

theorem exists_literalSigns (hs : s ≠ []) : ∃ chomping : Chomping, chomping.Suits s ∧
    literalSigns s = (if hidesIndent s then ['2'] else []) ++ chomping.sign := by
  obtain ⟨front, c, rfl⟩ := (List.eq_nil_or_concat' s).resolve_left hs
  have hreverse : (front ++ [c]).reverse = c :: front.reverse := by simp
  simp only [literalSigns, hidesIndent, hreverse]
  by_cases hc : isBreak c = true
  · rcases List.eq_nil_or_concat' front with rfl | ⟨before, d, rfl⟩
    · exact ⟨.keep, ⟨[], c, rfl, hc⟩, by simp [hc, Chomping.sign]⟩
    · by_cases hd : isBreak d = true
      · exact ⟨.keep, ⟨before ++ [d], c, rfl, hc⟩, by simp [hc, hd, Chomping.sign]⟩
      · rw [Bool.not_eq_true] at hd
        exact ⟨.clip, ⟨before, d, c, rfl, hd, hc⟩, by simp [hc, hd, Chomping.sign]⟩
  · rw [Bool.not_eq_true] at hc
    refine ⟨.strip, ⟨front, c, rfl, hc⟩, ?_⟩
    rcases List.eq_nil_or_concat' front with rfl | ⟨before, d, rfl⟩
    · simp [hc, Chomping.sign]
    · simp [hc, Chomping.sign]

/-- What the header of a text says. -/
theorem exists_signs (hs : s ≠ []) : ∃ chomping digit, chomping.Suits s ∧
    (digit = 2 ∨ digit = 0 ∧ hidesIndent s = false) ∧
    ∀ t, BlockHeader.takeSigns (literalSigns s ++ '\n' :: t) =
      some (chomping, digit, '\n' :: t) := by
  obtain ⟨chomping, hsuits, hsigns⟩ := exists_literalSigns hs
  cases hhides : hidesIndent s with
  | false =>
    refine ⟨chomping, 0, hsuits, .inr ⟨rfl, rfl⟩, fun t => ?_⟩
    rw [hsigns, hhides]
    exact takeSigns_sign chomping t
  | true =>
    refine ⟨chomping, 2, hsuits, .inl rfl, fun t => ?_⟩
    rw [hsigns, hhides]
    exact takeSigns_indent chomping t

theorem lineIndent_literalLines (header : BlockHeader) (hs : s ≠ [])
    (hprint : ∀ c ∈ s, isPrintable c = true)
    (hdigit : header.indent = 2 ∨ header.indent = 0 ∧ hidesIndent s = false)
    (t : List Char) : header.lineIndent 1 (literalLines true s ++ t) = some 2 := by
  rcases hdigit with hdigit | ⟨hdigit, hhead⟩
  · simp [BlockHeader.lineIndent, hdigit]
  · cases s with
    | nil => exact absurd rfl hs
    | cons c s =>
      obtain ⟨hspace, hbreak⟩ : c ≠ ' ' ∧ isBreak c = false := by
        simpa [hidesIndent] using hhead
      have htab : c ≠ '\t' := ne_of_isPrintable (hprint c List.mem_cons_self) rfl
      simp [BlockHeader.lineIndent, hdigit, literalLines, hbreak, widestIndent, hspace, htab]

/-- A text in several lines is read back from the block that it is written as. -/
theorem readBlock_literal (hs : s ≠ []) (hprint : ∀ c ∈ s, isPrintable c = true)
    (hrest : StartsLine rest) (mark : Mark) (fresh : Bool) :
    ∃ line, readBlock 1 ⟨writeIn .literal s ++ rest, mark, fresh⟩ =
      some (s, ⟨rest, ⟨line, 0, 0⟩, true⟩) := by
  obtain ⟨chomping, digit, hsuits, hdigit, hsigns⟩ := exists_signs hs
  have hlines := @blockFrom_lines rest ⟨true, chomping, digit⟩ rfl hrest s
  obtain ⟨line, hread⟩ := hlines.2 [] .start (mark.line + 1) .start hsuits
  have hindent := lineIndent_literalLines ⟨true, chomping, digit⟩ hs hprint hdigit rest
  have hafter : afterHeader ('\n' :: (literalLines true s ++ rest)) =
      some (literalLines true s ++ rest) := rfl
  have hvalue : writeIn .literal s ++ rest =
      '|' :: (literalSigns s ++ '\n' :: (literalLines true s ++ rest)) := by
    simp [writeIn]
  have hbar : ('|' == '|') = true := rfl
  refine ⟨line, ?_⟩
  simp only [readBlock, hvalue, hsigns, Option.bind_some, hafter, hbar, hindent]
  exact hread

end FakeData.Yaml
