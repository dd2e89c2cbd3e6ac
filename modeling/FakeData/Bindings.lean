/-!
# Bindings

Lists of pairs in which each key is bound once, in the order in which the keys were first bound.
-/
namespace FakeData.Bindings

variable {κ α : Type} [DecidableEq κ]

/-- Binds a key, in its old place if it had one. -/
def set (key : κ) (value : α) : List (κ × α) → List (κ × α)
  | [] => [(key, value)]
  | (other, old) :: pairs =>
    if other = key then (other, value) :: pairs else (other, old) :: set key value pairs

/-- A new key is bound in the last place. -/
theorem set_of_notMem {key : κ} {value : α} {pairs : List (κ × α)}
    (h : key ∉ pairs.map Prod.fst) : set key value pairs = pairs ++ [(key, value)] := by
  induction pairs with
  | nil => rfl
  | cons pair pairs ih =>
    rw [List.map_cons, List.mem_cons, not_or] at h
    rw [set, if_neg (Ne.symm h.1), ih h.2, List.cons_append]

end FakeData.Bindings
