/-!
# Draws

A computation that asks for random indices is a tree: it is done, or it asks for an index below a
positive bound and goes on as the index decides. Anything that can answer such questions can run
it, and what is asked in a run can be read off.
-/
namespace FakeData

/-- A computation that draws indices. -/
inductive Draw (α : Type) where
  | done (value : α)
  | ask (bound : Nat) (positive : 0 < bound) (next : Fin bound → Draw α)

namespace Draw

def andThen {α β : Type} : Draw α → (α → Draw β) → Draw β
  | .done value, f => f value
  | .ask bound positive next, f => .ask bound positive fun i => (next i).andThen f

def index (bound : Nat) (positive : 0 < bound) : Draw (Fin bound) := .ask bound positive .done

def pick {α : Type} (items : List α) (nonempty : 0 < items.length) : Draw α :=
  .ask items.length nonempty fun i => .done items[i]

end Draw

/-- Something that answers each question for an index below a bound. -/
class IndexSource (σ : Type) where
  next : σ → (bound : Nat) → 0 < bound → Fin bound × σ

namespace Draw

variable {σ α β : Type} [IndexSource σ]

def run : Draw α → σ → α × σ
  | .done value, source => (value, source)
  | .ask bound positive next, source =>
    (next (IndexSource.next source bound positive).1).run (IndexSource.next source bound positive).2

/-- The bounds that a computation asks for, in order. -/
def bounds : Draw α → σ → List Nat
  | .done _, _ => []
  | .ask bound positive next, source =>
    bound :: (next (IndexSource.next source bound positive).1).bounds
      (IndexSource.next source bound positive).2

@[simp] theorem run_done (value : α) (source : σ) :
    (Draw.done value).run source = (value, source) := rfl

@[simp] theorem bounds_done (value : α) (source : σ) : (Draw.done value).bounds source = [] := rfl

theorem run_andThen (draw : Draw α) (f : α → Draw β) (source : σ) :
    (draw.andThen f).run source = (f (draw.run source).1).run (draw.run source).2 := by
  induction draw generalizing source with
  | done value => rfl
  | ask bound positive next ih => exact ih _ _

theorem bounds_andThen (draw : Draw α) (f : α → Draw β) (source : σ) :
    (draw.andThen f).bounds source =
      draw.bounds source ++ (f (draw.run source).1).bounds (draw.run source).2 := by
  induction draw generalizing source with
  | done value => rfl
  | ask bound positive next ih => simp only [andThen, bounds, run, List.cons_append, ih]

end Draw

end FakeData
