/-!
# Pieces of a text

A text cut at every separator. There is always one more piece than there are separators, so
empty pieces are kept and joining the pieces again gives the text back.
-/
namespace FakeData.Text

def growFirst (c : Char) : List (List Char) → List (List Char)
  | [] => [[c]]
  | piece :: pieces => (c :: piece) :: pieces

def pieces (sep : Char) : List Char → List (List Char)
  | [] => [[]]
  | c :: cs => if c = sep then [] :: pieces sep cs else growFirst c (pieces sep cs)

@[simp] theorem pieces_nil (sep : Char) : pieces sep [] = [[]] := rfl

@[simp] theorem pieces_sep (sep : Char) (cs : List Char) :
    pieces sep (sep :: cs) = [] :: pieces sep cs := by simp [pieces]

theorem pieces_ne_nil (sep : Char) (cs : List Char) : pieces sep cs ≠ [] := by
  cases cs with
  | nil => simp
  | cons c cs =>
    by_cases h : c = sep
    · simp [pieces, h]
    · cases hp : pieces sep cs <;> simp [pieces, h, hp, growFirst]

/-- A text without the separator is one piece. -/
theorem pieces_of_notMem {sep : Char} {cs : List Char} (h : sep ∉ cs) : pieces sep cs = [cs] := by
  induction cs with
  | nil => rfl
  | cons c cs ih =>
    have hc : c ≠ sep := fun he => h (he ▸ List.mem_cons_self)
    have hcs : sep ∉ cs := fun hs => h (List.mem_cons_of_mem c hs)
    simp only [pieces, if_neg hc, ih hcs, growFirst]

/-- Cutting at one separator leaves the pieces on its two sides. -/
theorem pieces_append_sep (sep : Char) (before after : List Char) :
    pieces sep (before ++ sep :: after) = pieces sep before ++ pieces sep after := by
  induction before with
  | nil => simp
  | cons c before ih =>
    by_cases h : c = sep
    · simp [pieces, h, ih]
    · obtain ⟨piece, others, hp⟩ := List.exists_cons_of_ne_nil (pieces_ne_nil sep before)
      simp [pieces, h, ih, hp, growFirst]

def split (sep : Char) (text : String) : List String := (pieces sep text.toList).map .ofList

def replaceChar (sep : Char) (filling : String) (text : String) : String :=
  filling.intercalate (split sep text)

end FakeData.Text
