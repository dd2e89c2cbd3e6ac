import FakeData.Provider
import FakeData.Registry

/-!
# Generators

A generator has a store of datasets, a registry, and the handle of its current locale in that
registry. Making values changes none of them.
-/
namespace FakeData

structure Generator where
  store : DatasetStore
  registry : Nat
  handle : Handle
  deriving DecidableEq, Repr

namespace Generator

/-- A generator whose locale is registered in the given registry. -/
def new (registries : Registries) (registry : Nat) (store : DatasetStore) (locale : Locale) :
    Generator × Registries :=
  let got := registries.get registry locale
  (⟨store, registry, got.1⟩, got.2)

def locale (generator : Generator) : Locale := generator.handle.locale

/-- The generator with another locale, registered where the old one was. -/
def withLocale (generator : Generator) (registries : Registries) (locale : Locale) :
    Generator × Registries :=
  let got := registries.get generator.registry locale
  ({ generator with handle := got.1 }, got.2)

/-- The generator with another registry, in which its locale is registered. -/
def withRegistry (generator : Generator) (registries : Registries) (registry : Nat) :
    Generator × Registries :=
  let got := registries.get registry generator.locale
  ({ generator with registry := registry, handle := got.1 }, got.2)

def make (generator : Generator) (files : Files) (task : Task) : Draw (Except Failure String) :=
  task.draw files generator.store generator.locale

/-- So many values one after the other, up to the first failure. -/
def makeMany {σ : Type} [IndexSource σ] (generator : Generator) (files : Files) (task : Task) :
    Nat → σ → List String × Option Failure
  | 0, _ => ([], none)
  | count + 1, source =>
    match (generator.make files task).run source with
    | (.error failure, _) => ([], some failure)
    | (.ok value, source) =>
      let made := generator.makeMany files task count source
      (value :: made.1, made.2)

end Generator

inductive Step where
  | make (task : Task)
  | withLocale (locale : Locale)
  | withRegistry (registry : Nat)
  deriving DecidableEq, Repr

structure Session where
  generator : Generator
  registries : Registries

namespace Session

/-- What a step gives, if it makes a value, and the session after it. -/
def step (files : Files) (session : Session) :
    Step → Draw (Option (Except Failure String) × Session)
  | .make task =>
    (session.generator.make files task).andThen fun value => .done (some value, session)
  | .withLocale locale =>
    let changed := session.generator.withLocale session.registries locale
    .done (none, ⟨changed.1, changed.2⟩)
  | .withRegistry registry =>
    let changed := session.generator.withRegistry session.registries registry
    .done (none, ⟨changed.1, changed.2⟩)

def run (files : Files) :
    Session → List Step → Draw (List (Option (Except Failure String)) × Session)
  | session, [] => .done ([], session)
  | session, s :: steps =>
    (session.step files s).andThen fun result =>
      (run files result.2 steps).andThen fun results =>
        .done (result.1 :: results.1, results.2)

end Session

end FakeData
