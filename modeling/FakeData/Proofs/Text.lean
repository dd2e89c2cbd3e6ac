import FakeData.Text.Blank
import FakeData.Text.Pieces
import Mathlib.Data.List.DropRight

/-!
# Trimmed texts and texts in pieces

A trimmed text is a part of the text, and trimming it again changes nothing. The pieces of a text
are the only texts without the separator that give it back when they are joined.
-/
namespace FakeData.Text

/-! ## Trimmed texts -/

theorem trimBlanks_eq_rdropWhile (cs : List Char) :
    trimBlanks cs = (cs.dropWhile isBlank).rdropWhile isBlank := rfl

/-- Nothing is left exactly of blank characters. -/
theorem trimBlanks_eq_nil_iff {cs : List Char} :
    trimBlanks cs = [] ↔ ∀ c ∈ cs, isBlank c = true := by
  rw [trimBlanks_eq_rdropWhile, List.rdropWhile_eq_nil_iff]
  constructor
  · intro h c hc
    rw [← List.takeWhile_append_dropWhile (p := isBlank) (l := cs), List.mem_append] at hc
    rcases hc with hc | hc
    · exact List.mem_takeWhile_imp hc
    · exact h c hc
  · intro h c hc
    exact h c ((List.dropWhile_suffix isBlank).subset hc)

theorem trimBlanks_infix (cs : List Char) : trimBlanks cs <:+: cs :=
  (List.rdropWhile_prefix isBlank _).isInfix.trans (List.dropWhile_suffix isBlank).isInfix

/-- A trimmed text does not begin with a blank character, nor does it end with one. -/
theorem trimBlanks_trimBlanks (cs : List Char) : trimBlanks (trimBlanks cs) = trimBlanks cs := by
  have hfirst : (trimBlanks cs).dropWhile isBlank = trimBlanks cs := by
    cases htrim : trimBlanks cs with
    | nil => rfl
    | cons c rest =>
      have hprefix : c :: rest <+: cs.dropWhile isBlank := by
        rw [← htrim]
        exact List.rdropWhile_prefix isBlank _
      have hhead : (cs.dropWhile isBlank).head? = some c := by
        obtain ⟨tail, htail⟩ := hprefix
        simp [← htail]
      have hc : ¬ isBlank c = true := by
        have hnot := List.head?_dropWhile_not isBlank cs
        simpa [hhead] using hnot
      exact List.dropWhile_cons_of_neg hc
  rw [trimBlanks_eq_rdropWhile (trimBlanks cs), hfirst, trimBlanks_eq_rdropWhile,
    List.rdropWhile_idempotent]

@[simp] theorem toList_trim (text : String) : (trim text).toList = trimBlanks text.toList := by
  rw [trim, String.toList_ofList]

theorem trim_eq_empty_iff {text : String} :
    trim text = "" ↔ ∀ c ∈ text.toList, isBlank c = true := by
  rw [← String.toList_eq_nil_iff, toList_trim, trimBlanks_eq_nil_iff]

theorem trim_trim (text : String) : trim (trim text) = trim text := by
  rw [← String.toList_inj, toList_trim, toList_trim, trimBlanks_trimBlanks]

/-! ## Pieces -/

theorem infix_intercalate_of_mem {α : Type} (sep : List α) {piece : List α} {pieces : List (List α)}
    (h : piece ∈ pieces) : piece <:+: sep.intercalate pieces := by
  induction pieces with
  | nil => cases h
  | cons first pieces ih =>
    cases pieces with
    | nil =>
      rw [List.mem_singleton] at h
      simp only [h, List.intercalate_singleton, List.infix_rfl]
    | cons second pieces =>
      rw [List.intercalate_cons_cons]
      rcases List.mem_cons.mp h with rfl | h
      · exact (List.prefix_append _ _).isInfix.trans (List.prefix_append _ _).isInfix
      · exact (ih h).trans (List.suffix_append _ _).isInfix

theorem pieces_eq_splitOn (sep : Char) (cs : List Char) : pieces sep cs = cs.splitOn sep := by
  induction cs with
  | nil => rfl
  | cons c cs ih =>
    rw [List.splitOn_cons_eq_if_modifyHead, pieces, ih]
    by_cases hc : c = sep
    · simp [hc]
    · obtain ⟨piece, others, hp⟩ := List.exists_cons_of_ne_nil (List.splitOn_ne_nil sep cs)
      simp [hc, hp, growFirst]

/-- There is one more piece than there are separators. -/
theorem length_pieces (sep : Char) (cs : List Char) :
    (pieces sep cs).length = cs.count sep + 1 := by
  induction cs with
  | nil => rfl
  | cons c cs ih =>
    by_cases hc : c = sep
    · simp [pieces, hc, ih]
    · obtain ⟨piece, others, hp⟩ := List.exists_cons_of_ne_nil (pieces_ne_nil sep cs)
      rw [hp] at ih
      simp [pieces, hc, hp, growFirst, ← ih]

theorem length_split (sep : Char) (text : String) :
    (split sep text).length = text.toList.count sep + 1 := by
  rw [split, List.length_map, length_pieces]

theorem map_toList_split (sep : Char) (text : String) :
    (split sep text).map String.toList = pieces sep text.toList := by
  simp [split, Function.comp_def]

/-- Cutting at a character takes it out and changes nothing else. -/
theorem intercalate_split (sep : Char) (text : String) :
    (String.singleton sep).intercalate (split sep text) = text := by
  rw [← String.toList_inj, String.toList_intercalate, map_toList_split, pieces_eq_splitOn,
    String.toList_singleton, List.intercalate_splitOn]

/-- Texts without the separator are the pieces of what they make when they are joined. -/
theorem split_intercalate {sep : Char} {parts : List String} (nonempty : parts ≠ [])
    (apart : ∀ part ∈ parts, sep ∉ part.toList) :
    split sep ((String.singleton sep).intercalate parts) = parts := by
  have hchars : ∀ cs ∈ parts.map String.toList, sep ∉ cs := by
    simpa using apart
  rw [split, String.toList_intercalate, String.toList_singleton, pieces_eq_splitOn,
    List.splitOn_intercalate sep hchars (by simpa using nonempty), List.map_map]
  simp [Function.comp_def]

theorem notMem_of_mem_pieces {sep : Char} {cs piece : List Char} (h : piece ∈ pieces sep cs) :
    sep ∉ piece := by
  induction cs generalizing piece with
  | nil => simp_all
  | cons c cs ih =>
    by_cases hc : c = sep
    · subst hc
      rw [pieces_sep] at h
      rcases List.mem_cons.mp h with rfl | h
      · exact List.not_mem_nil
      · exact ih h
    · obtain ⟨first, others, hp⟩ := List.exists_cons_of_ne_nil (pieces_ne_nil sep cs)
      rw [hp] at ih
      simp only [pieces, hc, if_false, hp, growFirst, List.mem_cons] at h
      rcases h with rfl | h
      · have hfirst := ih List.mem_cons_self
        simp [Ne.symm hc, hfirst]
      · exact ih (List.mem_cons_of_mem first h)

/-- Each piece is a part of the text. -/
theorem infix_of_mem_pieces {sep : Char} {cs piece : List Char} (h : piece ∈ pieces sep cs) :
    piece <:+: cs := by
  have hjoined : [sep].intercalate (pieces sep cs) = cs := by
    rw [pieces_eq_splitOn, List.intercalate_splitOn]
  have hinfix := infix_intercalate_of_mem [sep] h
  rwa [hjoined] at hinfix

theorem notMem_of_mem_split {sep : Char} {text part : String} (h : part ∈ split sep text) :
    sep ∉ part.toList := by
  obtain ⟨piece, hpiece, rfl⟩ := List.mem_map.mp h
  rw [String.toList_ofList]
  exact notMem_of_mem_pieces hpiece

/-- Joining brings in no character but the separator. -/
theorem mem_intercalate_iff {sep c : Char} (other : c ≠ sep) {parts : List String} :
    c ∈ ((String.singleton sep).intercalate parts).toList ↔ ∃ part ∈ parts, c ∈ part.toList := by
  induction parts with
  | nil => simp
  | cons part parts ih =>
    by_cases hparts : parts = []
    · simp [hparts]
    · rw [String.intercalate_cons_of_ne_nil hparts]
      simp only [String.toList_append, String.toList_singleton, List.mem_append, List.mem_cons,
        other, List.not_mem_nil, or_false, ih, exists_eq_or_imp]

/-! ## Replaced characters -/

theorem intercalate_growFirst (filling : List Char) (c : Char) {parts : List (List Char)}
    (h : parts ≠ []) :
    filling.intercalate (growFirst c parts) = c :: filling.intercalate parts := by
  obtain ⟨part, others, rfl⟩ := List.exists_cons_of_ne_nil h
  cases others <;> simp [growFirst, List.intercalate]

/-- Each separator is replaced by the filling, and nothing else is. -/
theorem toList_replaceChar (sep : Char) (filling text : String) :
    (replaceChar sep filling text).toList =
      text.toList.flatMap fun c => if c = sep then filling.toList else [c] := by
  rw [replaceChar, String.toList_intercalate, map_toList_split]
  induction text.toList with
  | nil => rfl
  | cons c cs ih =>
    by_cases hc : c = sep
    · subst hc
      rw [pieces_sep, List.intercalate_cons_of_ne_nil (pieces_ne_nil c cs), ih]
      simp
    · rw [pieces, if_neg hc, intercalate_growFirst _ _ (pieces_ne_nil sep cs), ih]
      simp [hc]

end FakeData.Text
