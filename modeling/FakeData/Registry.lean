import FakeData.Locale

/-!
# Locale registries

A registry hands out one handle per locale. Handles are numbered over all registries in the
order in which they are first made, so two handles are the same exactly when their numbers are.
-/
namespace FakeData

structure Handle where
  number : Nat
  locale : Locale
  deriving DecidableEq, Repr

/-- The handles of one registry, in the order in which they were made. -/
abbrev Registry := List Handle

namespace Registry

def find? (registry : Registry) (locale : Locale) : Option Handle :=
  List.find? (fun handle => handle.locale == locale) registry

def contains (registry : Registry) (locale : Locale) : Bool := (registry.find? locale).isSome

end Registry

/-- All registries of a program, named by numbers. A registry that was never used is empty. -/
structure Registries where
  issued : Nat
  registry : Nat → Registry

namespace Registries

def empty : Registries := ⟨0, fun _ => []⟩

/-- The handle of a locale in one registry, made now if it is asked for the first time. -/
def get (registries : Registries) (name : Nat) (locale : Locale) : Handle × Registries :=
  match (registries.registry name).find? locale with
  | some handle => (handle, registries)
  | none =>
    let handle := ⟨registries.issued, locale⟩
    (handle, ⟨registries.issued + 1, fun other =>
      if other = name then registries.registry name ++ [handle] else registries.registry other⟩)

def contains (registries : Registries) (name : Nat) (locale : Locale) : Bool :=
  (registries.registry name).contains locale

def size (registries : Registries) (name : Nat) : Nat := (registries.registry name).length

def isEmpty (registries : Registries) (name : Nat) : Bool := registries.size name == 0

end Registries

end FakeData
