import FakeData.Path
import FakeData.Text.Pieces
import Mathlib.Data.String.Basic

/-!
# Places of paths

The place of a path is what is left of it when its components are taken in turn, without looking
at any file system: `.` stays, and `..` takes back the last name. Joining a relative path goes on
from the place of the left one.
-/
namespace FakeData.Path

variable {left right name : String}

/-! ## Components -/

/-- The components of a path. A slash at the end leaves an empty one behind it. -/
def components (path : String) : List String := Text.split '/' path

/-- One component that leads neither up nor to the root of the file system. -/
structure IsComponent (name : String) : Prop where
  nonempty : name ≠ ""
  no_slash : '/' ∉ name.toList
  not_parent : name ≠ ".."

theorem IsComponent.toList_ne_nil (h : IsComponent name) : name.toList ≠ [] := by
  intro he
  exact h.nonempty (String.toList_eq_nil_iff.mp he)

theorem IsComponent.isAbsolute_eq_false (h : IsComponent name) : isAbsolute name = false := by
  obtain ⟨c, cs, hcs⟩ := List.exists_cons_of_ne_nil h.toList_ne_nil
  have hc : c ≠ '/' := by
    rintro rfl
    exact h.no_slash (by simp [hcs])
  simp [isAbsolute, hcs, hc]

theorem components_of_notMem (h : '/' ∉ name.toList) : components name = [name] := by
  simp [components, Text.split, Text.pieces_of_notMem h]

/-- A slash separates the components on its two sides. -/
theorem components_append_slash (left right : String) :
    components (left ++ "/" ++ right) = components left ++ components right := by
  have hchars : (left ++ "/" ++ right).toList = left.toList ++ '/' :: right.toList := by
    simp [String.toList_append]
  rw [components, Text.split, hchars, Text.pieces_append_sep, List.map_append]
  rfl

theorem components_slash (left : String) : components (left ++ "/") = components left ++ [""] := by
  have hempty : components "" = [""] := rfl
  rw [← hempty, ← components_append_slash, String.append_empty]

/-- Names without slashes are the components of what they make when slashes are put between them. -/
theorem components_intercalate {names : List String} (nonempty : names ≠ [])
    (no_slash : ∀ name ∈ names, '/' ∉ name.toList) :
    components ("/".intercalate names) = names := by
  induction names with
  | nil => exact absurd rfl nonempty
  | cons name names ih =>
    obtain ⟨hname, hnames⟩ := List.forall_mem_cons.mp no_slash
    cases names with
    | nil => rw [String.intercalate_singleton, components_of_notMem hname]
    | cons next names =>
      have hrest := ih (List.cons_ne_nil next names) hnames
      rw [String.intercalate_cons_cons, components_append_slash, components_of_notMem hname, hrest]
      rfl

/-! ## Joins -/

/-- A further slash is left out after nothing and after a slash. -/
theorem isOpen_iff : isOpen left = true ↔ left = "" ∨ left.toList.getLast? = some '/' := by
  rw [isOpen]
  cases h : left.toList.getLast? with
  | none => simpa using h
  | some c =>
    have hne : left ≠ "" := by
      rintro rfl
      cases h
    simp [hne]

theorem isOpen_append_component (h : IsComponent name) : isOpen (left ++ name) = false := by
  obtain ⟨cs, c, hcs⟩ := List.eq_nil_or_concat name.toList |>.resolve_left h.toList_ne_nil
  have hc : c ≠ '/' := by
    rintro rfl
    exact h.no_slash (by simp [hcs])
  simp [isOpen, String.toList_append, hcs, hc]

/-- A relative path follows the left one, with a slash between them where one is missing. -/
theorem join_of_relative (relative : isAbsolute right = false) :
    join left right = left ++ (if isOpen left then "" else "/") ++ right := by
  rw [join, relative, if_neg (by simp)]
  split_ifs <;> simp

/-! ## Places -/

/-- Where a path leads, with the outermost name first. Only a relative place begins with `..`. -/
structure Place where
  absolute : Bool
  names : List String
  deriving DecidableEq, Repr

namespace Place

/-- The place around a place. Nothing is around the root of the file system. -/
def parent (place : Place) : Place :=
  if place.names.getLast?.all (· == "..") then
    if place.absolute then place else { place with names := place.names ++ [".."] }
  else { place with names := place.names.dropLast }

def enter (place : Place) (name : String) : Place :=
  if name = "" ∨ name = "." then place
  else if name = ".." then place.parent
  else { place with names := place.names ++ [name] }

@[simp] theorem enter_empty (place : Place) : place.enter "" = place := by simp [enter]

theorem enter_component (place : Place) (h : IsComponent name) :
    place.enter name = { place with names := place.names ++ [name].filter (· != ".") } := by
  by_cases hdot : name = "."
  · simp [enter, hdot]
  · simp [enter, hdot, h.nonempty, h.not_parent]

/-- Components that lead nowhere else are names below the place, without those that stay. -/
theorem foldl_enter {names : List String} (place : Place)
    (h : ∀ name ∈ names, IsComponent name) :
    names.foldl enter place =
      { place with names := place.names ++ names.filter (· != ".") } := by
  induction names generalizing place with
  | nil => simp
  | cons name names ih =>
    obtain ⟨hname, hnames⟩ := List.forall_mem_cons.mp h
    rw [List.foldl_cons, enter_component place hname, ih _ hnames]
    have hfilter : (name :: names).filter (· != ".") =
        [name].filter (· != ".") ++ names.filter (· != ".") := List.filter_append [name] names
    rw [hfilter, List.append_assoc]

/-- Names are left after the names of the other place, none of which leads up again. -/
def IsStrictlyBelow (lower upper : Place) : Prop :=
  ∃ below, below ≠ [] ∧ ".." ∉ below ∧ lower = { upper with names := upper.names ++ below }

end Place

def place (path : String) : Place := (components path).foldl Place.enter ⟨isAbsolute path, []⟩

theorem isAbsolute_append (h : left ≠ "") : isAbsolute (left ++ right) = isAbsolute left := by
  have hchars : left.toList ≠ [] := by
    intro he
    exact h (String.toList_eq_nil_iff.mp he)
  obtain ⟨c, cs, hcs⟩ := List.exists_cons_of_ne_nil hchars
  simp [isAbsolute, String.toList_append, hcs]

/-- A slash at the end leads nowhere else. -/
theorem place_append_slash (h : left ≠ "") : place (left ++ "/") = place left := by
  rw [place, components_slash, isAbsolute_append h, List.foldl_append]
  exact Place.enter_empty _

theorem place_slash_append (left right : String) :
    place (left ++ "/" ++ right) = (components right).foldl Place.enter (place (left ++ "/")) := by
  have hne : left ++ "/" ≠ "" := by simp
  rw [place, place, components_append_slash, components_slash, isAbsolute_append hne,
    List.foldl_append, List.foldl_append, List.foldl_cons, List.foldl_nil, Place.enter_empty]

/-- A relative path goes on from the place of the left one. -/
theorem place_join (relative : isAbsolute right = false) :
    place (join left right) = (components right).foldl Place.enter (place left) := by
  rw [join_of_relative relative]
  by_cases hopen : isOpen left
  · rw [if_pos hopen, String.append_empty]
    rcases isOpen_iff.mp hopen with rfl | hlast
    · rw [String.empty_append, place, relative]
      rfl
    · obtain ⟨base, hbase⟩ : ∃ base, left = base ++ "/" := by
        obtain ⟨cs, hcs⟩ := List.getLast?_eq_some_iff.mp hlast
        exact ⟨.ofList cs, by apply String.toList_injective; simp [String.toList_append, hcs]⟩
      rw [hbase, place_slash_append]
  · have hne : left ≠ "" := by
      rintro rfl
      exact hopen rfl
    rw [if_neg hopen, place_slash_append, place_append_slash hne]

example : place "/a/../../b/./c//" = ⟨true, ["b", "c"]⟩ := by decide

end FakeData.Path
