import FakeData.Generator
import FakeData.Proofs.Registry

/-!
# Generators side by side

Any number of generators, each with a source of its own, among registries that they may share.
Whatever the others do, the handle of a generator is the one that its registry holds for its
locale. Which registry a generator uses shows in its handle only, and in none of the values that
it makes.
-/
namespace FakeData

structure Worker (σ : Type) where
  generator : Generator
  source : σ

/-- Generators side by side. The registries from the number `unnamed` on were never used. -/
structure Workshop (σ : Type) where
  registries : Registries
  unnamed : Nat
  workers : List (Worker σ)

namespace Workshop

/-- What happens in a workshop: a new generator with a registry of its own, or a step of one that
is there, with the files as they are at that time. -/
inductive Action (σ : Type) where
  | new (store : DatasetStore) (locale : Locale) (source : σ)
  | use (place : Nat) (files : Files) (s : Step)

variable {σ : Type}

/-- The action does not move a generator to another registry. -/
def Action.staysPut : Action σ → Bool
  | .use _ _ (.withRegistry _) => false
  | _ => true

def unnamedBy : Step → Nat
  | .withRegistry registry => registry + 1
  | .make _ | .withLocale _ => 0

def empty : Workshop σ := ⟨.empty, 0, []⟩

def generators (workshop : Workshop σ) : List Generator := workshop.workers.map Worker.generator

section Steps

variable [IndexSource σ]

def workerStep (files : Files) (registries : Registries) (worker : Worker σ) (s : Step) :
    Option (Except Failure String) × Registries × Worker σ :=
  let ran := (Session.step files ⟨worker.generator, registries⟩ s).run worker.source
  (ran.1.1, ran.1.2.registries, ⟨ran.1.2.generator, ran.2⟩)

def step (workshop : Workshop σ) : Action σ → Option (Except Failure String) × Workshop σ
  | .new store locale source =>
    let made := Generator.new workshop.registries workshop.unnamed store locale
    (none, ⟨made.2, workshop.unnamed + 1, workshop.workers ++ [⟨made.1, source⟩]⟩)
  | .use place files s =>
    match workshop.workers[place]? with
    | none => (none, workshop)
    | some worker =>
      let worked := workerStep files workshop.registries worker s
      (worked.1, ⟨worked.2.1, max workshop.unnamed (unnamedBy s),
        workshop.workers.set place worked.2.2⟩)

def after : Workshop σ → List (Action σ) → Workshop σ
  | workshop, [] => workshop
  | workshop, action :: actions => (workshop.step action).2.after actions

def events : Workshop σ → List (Action σ) → List (Action σ × Option (Except Failure String))
  | _, [] => []
  | workshop, action :: actions =>
    (action, (workshop.step action).1) :: (workshop.step action).2.events actions

end Steps

variable {workshop : Workshop σ} {worker : Worker σ} {generator : Generator} {files : Files}
  {place : Nat}

/-- A change in one place does not show where it keeps what is looked at. -/
theorem map_set_of_same {α β : Type} {items : List α} {item new : α} {look : α → β}
    (present : items[place]? = some item) (same : look new = look item) :
    (items.set place new).map look = items.map look := by
  have hlook : (items.map look)[place]? = some (look item) := by
    rw [List.getElem?_map, present, Option.map_some]
  obtain ⟨inside, hlook⟩ := List.getElem?_eq_some_iff.mp hlook
  rw [List.map_set, same, ← hlook, List.set_getElem_self]

/-! ## Consistent workshops -/

/-- Handles are sound, each generator's is in its registry, and unnamed registries are empty. -/
structure Consistent (workshop : Workshop σ) : Prop where
  sound : workshop.registries.Sound
  held : ∀ generator ∈ workshop.generators,
    generator.handle ∈ workshop.registries.registry generator.registry
  unused : ∀ name, workshop.unnamed ≤ name → workshop.registries.registry name = []

theorem consistent_empty : (empty : Workshop σ).Consistent := by
  refine ⟨Registries.sound_empty, ?_, fun _ _ => rfl⟩
  intro generator h
  cases h

theorem Consistent.named (consistent : workshop.Consistent) (h : generator ∈ workshop.generators) :
    generator.registry < workshop.unnamed := by
  by_contra unnamed
  have hheld := consistent.held generator h
  rw [consistent.unused _ (Nat.le_of_not_lt unnamed)] at hheld
  cases hheld

/-- The registry of a generator gives its handle for its locale, and does not grow. -/
theorem Consistent.get_locale (consistent : workshop.Consistent)
    (h : generator ∈ workshop.generators) :
    workshop.registries.get generator.registry generator.locale =
      (generator.handle, workshop.registries) :=
  consistent.sound.get_eq (consistent.held generator h)

/-! ## Generators that get another handle -/

def rebind (registries : Registries) (generator : Generator) (name : Nat) (locale : Locale) :
    Generator :=
  ⟨generator.store, name, (registries.get name locale).1⟩

/-- The registry and the locale for which a step gets a handle. -/
inductive Rebinds (generator : Generator) : Step → Nat → Locale → Prop where
  | locale (locale : Locale) : Rebinds generator (.withLocale locale) generator.registry locale
  | registry (name : Nat) : Rebinds generator (.withRegistry name) name generator.locale

/-! ## Workshops that look alike -/

/-- What of a worker can be seen in the values that it makes. -/
def visible (worker : Worker σ) : DatasetStore × Locale × σ :=
  (worker.generator.store, worker.generator.locale, worker.source)

theorem visible_rebind (registries : Registries) (generator : Generator) (name : Nat)
    (locale : Locale) (source : σ) :
    visible ⟨rebind registries generator name locale, source⟩ =
      (generator.store, locale, source) := by
  simp only [visible, rebind, Generator.locale, Registries.locale_get]

/-- The workers are the same, but for their registries and handles. -/
def Alike (workshop other : Workshop σ) : Prop :=
  workshop.workers.map visible = other.workers.map visible

/-! ## What a step does -/

variable [IndexSource σ]

theorem step_of_absent (absent : workshop.workers[place]? = none) (files : Files) (s : Step) :
    workshop.step (.use place files s) = (none, workshop) := by
  simp only [step, absent]

theorem step_of_present (present : workshop.workers[place]? = some worker) (files : Files)
    (s : Step) : workshop.step (.use place files s) =
      ((workerStep files workshop.registries worker s).1,
        ⟨(workerStep files workshop.registries worker s).2.1, max workshop.unnamed (unnamedBy s),
          workshop.workers.set place (workerStep files workshop.registries worker s).2.2⟩) := by
  simp only [step, present]

theorem workerStep_make (files : Files) (registries : Registries) (worker : Worker σ)
    (task : Task) : workerStep files registries worker (.make task) =
      (some ((worker.generator.make files task).run worker.source).1, registries,
        ⟨worker.generator, ((worker.generator.make files task).run worker.source).2⟩) := by
  simp only [workerStep, Session.step, Draw.run_andThen, Draw.run_done]

theorem workerStep_withLocale (files : Files) (registries : Registries) (worker : Worker σ)
    (locale : Locale) : workerStep files registries worker (.withLocale locale) =
      (none, (registries.get worker.generator.registry locale).2,
        ⟨rebind registries worker.generator worker.generator.registry locale, worker.source⟩) := rfl

theorem workerStep_withRegistry (files : Files) (registries : Registries) (worker : Worker σ)
    (name : Nat) : workerStep files registries worker (.withRegistry name) =
      (none, (registries.get name worker.generator.locale).2,
        ⟨rebind registries worker.generator name worker.generator.locale, worker.source⟩) := rfl

/-- Making a value changes neither the registries nor a generator. -/
theorem step_make (workshop : Workshop σ) (place : Nat) (files : Files) (task : Task) :
    (workshop.step (.use place files (.make task))).2.registries = workshop.registries ∧
      (workshop.step (.use place files (.make task))).2.generators = workshop.generators := by
  cases hworker : workshop.workers[place]? with
  | none =>
    rw [step_of_absent hworker]
    exact ⟨rfl, rfl⟩
  | some worker =>
    rw [step_of_present hworker, workerStep_make]
    exact ⟨rfl, map_set_of_same hworker rfl⟩

/-- A generator that changes its locale or its registry gets a handle there. -/
theorem step_rebind (files : Files) {s : Step} {name : Nat} {locale : Locale}
    (present : workshop.generators[place]? = some generator)
    (rebinds : Rebinds generator s name locale) :
    (workshop.step (.use place files s)).2.registries =
        (workshop.registries.get name locale).2 ∧
      (workshop.step (.use place files s)).2.generators =
        workshop.generators.set place (rebind workshop.registries generator name locale) := by
  rw [generators, List.getElem?_map, Option.map_eq_some_iff] at present
  obtain ⟨worker, hworker, rfl⟩ := present
  rw [step_of_present hworker]
  cases rebinds with
  | locale locale => exact ⟨rfl, List.map_set⟩
  | registry name => exact ⟨rfl, List.map_set⟩

/-- An action leaves the registries and the generators as they are, or it gets one handle, in a
registry that is in use or not above those that are named now, for one generator. -/
theorem step_cases (workshop : Workshop σ) (action : Action σ) :
    workshop.unnamed ≤ (workshop.step action).2.unnamed ∧
      (((workshop.step action).2.registries = workshop.registries ∧
          (workshop.step action).2.generators = workshop.generators) ∨
        ∃ store name locale,
          (workshop.step action).2.registries = (workshop.registries.get name locale).2 ∧
          (name ∈ workshop.generators.map Generator.registry ∨
            name < (workshop.step action).2.unnamed) ∧
          ∀ generator ∈ (workshop.step action).2.generators, generator ∈ workshop.generators ∨
            generator = ⟨store, name, (workshop.registries.get name locale).1⟩) := by
  cases action with
  | new store locale source =>
    refine ⟨Nat.le_succ _,
      .inr ⟨store, workshop.unnamed, locale, rfl, .inr (Nat.lt_succ_self _), ?_⟩⟩
    intro generator h
    simp only [step, generators, List.map_append, List.mem_append, List.map_singleton,
      List.mem_singleton] at h
    exact h
  | use place files s =>
    cases hworker : workshop.workers[place]? with
    | none =>
      rw [step_of_absent hworker]
      exact ⟨Nat.le_refl _, .inl ⟨rfl, rfl⟩⟩
    | some worker =>
      have hmore : workshop.unnamed ≤ (workshop.step (.use place files s)).2.unnamed := by
        rw [step_of_present hworker]
        exact Nat.le_max_left _ _
      have present : workshop.generators[place]? = some worker.generator := by
        rw [generators, List.getElem?_map, hworker, Option.map_some]
      refine ⟨hmore, ?_⟩
      cases s with
      | make task => exact .inl (step_make workshop place files task)
      | withLocale locale =>
        obtain ⟨hregistries, hgenerators⟩ := step_rebind files present (.locale locale)
        refine .inr ⟨worker.generator.store, _, _, hregistries, .inl ?_, ?_⟩
        · exact List.mem_map_of_mem (List.mem_of_getElem? present)
        · rw [hgenerators]
          intro generator h
          exact List.mem_or_eq_of_mem_set h
      | withRegistry name =>
        obtain ⟨hregistries, hgenerators⟩ := step_rebind files present (.registry name)
        refine .inr ⟨worker.generator.store, _, _, hregistries, .inr ?_, ?_⟩
        · rw [step_of_present hworker]
          exact Nat.lt_of_lt_of_le (Nat.lt_succ_self name) (Nat.le_max_right _ _)
        · rw [hgenerators]
          intro generator h
          exact List.mem_or_eq_of_mem_set h

/-! ## What every run keeps -/

theorem extends_step (workshop : Workshop σ) (action : Action σ) :
    workshop.registries.Extends (workshop.step action).2.registries := by
  obtain ⟨-, ⟨hregistries, -⟩ | ⟨_, name, locale, hregistries, -, -⟩⟩ := step_cases workshop action
  · rw [hregistries]
    exact .refl _
  · rw [hregistries]
    exact Registries.extends_get _ name locale

theorem consistent_step (consistent : workshop.Consistent) (action : Action σ) :
    (workshop.step action).2.Consistent := by
  have extended := extends_step workshop action
  obtain ⟨more, ⟨hregistries, hgenerators⟩ | ⟨store, name, locale, hregistries, named, bound⟩⟩ :=
    step_cases workshop action
  · refine ⟨?_, ?_, ?_⟩
    · rw [hregistries]
      exact consistent.sound
    · rw [hregistries, hgenerators]
      exact consistent.held
    · intro other hother
      rw [hregistries]
      exact consistent.unused other (Nat.le_trans more hother)
  · refine ⟨?_, ?_, ?_⟩
    · rw [hregistries]
      exact Registries.sound_get consistent.sound name locale
    · intro generator h
      rcases bound generator h with h | rfl
      · exact extended.mem (consistent.held generator h)
      · rw [hregistries]
        exact Registries.mem_get _ name locale
    · intro other hother
      have hname : name < (workshop.step action).2.unnamed := by
        rcases named with named | named
        · obtain ⟨generator, h, rfl⟩ := List.mem_map.mp named
          exact Nat.lt_of_lt_of_le (consistent.named h) more
        · exact named
      have apart : other ≠ name := Nat.ne_of_gt (Nat.lt_of_lt_of_le hname hother)
      rw [hregistries, Registries.get_other _ locale apart]
      exact consistent.unused other (Nat.le_trans more hother)

theorem consistent_after (consistent : workshop.Consistent) (actions : List (Action σ)) :
    (workshop.after actions).Consistent := by
  induction actions generalizing workshop with
  | nil => exact consistent
  | cons action actions ih => exact ih (consistent_step consistent action)

theorem extends_after (workshop : Workshop σ) (actions : List (Action σ)) :
    workshop.registries.Extends (workshop.after actions).registries := by
  induction actions generalizing workshop with
  | nil => exact .refl _
  | cons action actions ih => exact (extends_step workshop action).trans (ih _)

/-- Two generators have one handle exactly when they share a registry and a locale, also when one
of them is seen later than the other. -/
theorem number_eq_iff_after (consistent : workshop.Consistent) (actions : List (Action σ))
    {later : Generator} (h : generator ∈ workshop.generators)
    (hlater : later ∈ (workshop.after actions).generators) :
    generator.handle.number = later.handle.number ↔
      generator.registry = later.registry ∧ generator.locale = later.locale := by
  have still := (extends_after workshop actions).mem (consistent.held generator h)
  have consistent_later := consistent_after consistent actions
  exact consistent_later.sound.number_eq_iff still (consistent_later.held later hlater)

theorem getElem?_generators_step_rebind {s : Step} {name : Nat} {locale : Locale}
    (present : workshop.generators[place]? = some generator)
    (rebinds : Rebinds generator s name locale) :
    (workshop.step (.use place files s)).2.generators[place]? =
      some (rebind workshop.registries generator name locale) := by
  obtain ⟨inside, -⟩ := List.getElem?_eq_some_iff.mp present
  rw [(step_rebind files present rebinds).2, List.getElem?_set_self inside]

/-- A generator that turns to a locale which its registry knows gets the handle that is there. -/
theorem step_withLocale_of_mem (consistent : workshop.Consistent) {handle : Handle}
    (present : workshop.generators[place]? = some generator)
    (known : handle ∈ workshop.registries.registry generator.registry) :
    let returned := (workshop.step (.use place files (.withLocale handle.locale))).2
    returned.registries = workshop.registries ∧
      returned.generators[place]? = some { generator with handle } := by
  have hget := consistent.sound.get_eq known
  refine ⟨?_, ?_⟩
  · rw [(step_rebind files present (.locale handle.locale)).1, hget]
  · rw [getElem?_generators_step_rebind present (.locale handle.locale), rebind, hget]

/-- A new generator is alone in its registry. -/
theorem step_new (consistent : workshop.Consistent) (store : DatasetStore) (locale : Locale)
    (source : σ) :
    let made := (workshop.step (.new store locale source)).2
    ∃ generator, made.generators = workshop.generators ++ [generator] ∧
      generator.store = store ∧ generator.locale = locale ∧
      made.registries.registry generator.registry = [generator.handle] ∧
      ∀ other ∈ workshop.generators, other.registry ≠ generator.registry := by
  have hnil := consistent.unused _ (Nat.le_refl workshop.unnamed)
  refine ⟨(Generator.new workshop.registries workshop.unnamed store locale).1, ?_, rfl,
    Registries.locale_get _ _ locale, ?_, fun other h => Nat.ne_of_lt (consistent.named h)⟩
  · exact List.map_append
  · rcases Registries.get_cases workshop.registries workshop.unnamed locale with
      ⟨handle, hmem, -⟩ | ⟨-, hget⟩
    · rw [hnil] at hmem
      cases hmem
    · simp only [step, Generator.new, hget, Registries.issue_same, hnil, List.nil_append]

/-- A generator that moves keeps its locale, and its old registry stays as it was. -/
theorem step_withRegistry (consistent : workshop.Consistent)
    (present : workshop.generators[place]? = some generator) (files : Files) (name : Nat) :
    let moved := (workshop.step (.use place files (.withRegistry name))).2
    (∃ other, moved.generators[place]? = some other ∧ other.store = generator.store ∧
      other.registry = name ∧ other.locale = generator.locale) ∧
      moved.registries.registry generator.registry =
        workshop.registries.registry generator.registry := by
  refine ⟨⟨_, getElem?_generators_step_rebind present (.registry name), rfl, rfl,
    Registries.locale_get _ name _⟩, ?_⟩
  rw [(step_rebind files present (.registry name)).1]
  by_cases same : generator.registry = name
  · have hget := consistent.get_locale (List.mem_of_getElem? present)
    rw [← same, hget]
  · exact Registries.get_other _ _ same

/-! ## Runs without moves -/

theorem workerStep_alike (registries others : Registries) {worker other : Worker σ}
    (same : visible worker = visible other) {s : Step}
    (stays : ∀ name, s ≠ .withRegistry name) (files : Files) :
    (workerStep files registries worker s).1 = (workerStep files others other s).1 ∧
      visible (workerStep files registries worker s).2.2 =
        visible (workerStep files others other s).2.2 := by
  simp only [visible, Prod.mk.injEq] at same
  obtain ⟨hstore, hlocale, hsource⟩ := same
  cases s with
  | make task =>
    simp only [workerStep_make, Generator.make, visible, hstore, hlocale, hsource, and_self]
  | withLocale locale =>
    simp only [workerStep_withLocale, visible_rebind, hstore, hsource, and_self]
  | withRegistry name => exact absurd rfl (stays name)

theorem step_alike {other : Workshop σ} (alike : workshop.Alike other) {action : Action σ}
    (stays : action.staysPut = true) :
    (workshop.step action).1 = (other.step action).1 ∧
      (workshop.step action).2.Alike (other.step action).2 := by
  cases action with
  | new store locale source =>
    refine ⟨rfl, ?_⟩
    rw [Alike] at alike
    simp only [Alike, step, Generator.new, List.map_append, alike, List.map_singleton, visible,
      Generator.locale, Registries.locale_get]
  | use place files s =>
    have hsame : (workshop.workers[place]?).map visible = (other.workers[place]?).map visible := by
      rw [← List.getElem?_map, ← List.getElem?_map, alike]
    cases hworker : workshop.workers[place]? with
    | none =>
      rw [hworker, Option.map_none, eq_comm, Option.map_eq_none_iff] at hsame
      rw [step_of_absent hworker, step_of_absent hsame]
      exact ⟨rfl, alike⟩
    | some worker =>
      rw [hworker, Option.map_some, eq_comm, Option.map_eq_some_iff] at hsame
      obtain ⟨worker', hworker', same⟩ := hsame
      have hstays : ∀ name, s ≠ .withRegistry name := by
        rintro name rfl
        cases stays
      obtain ⟨hresult, hvisible⟩ :=
        workerStep_alike workshop.registries other.registries same.symm hstays files
      rw [step_of_present hworker, step_of_present hworker']
      refine ⟨hresult, ?_⟩
      rw [Alike] at alike ⊢
      rw [List.map_set, List.map_set, alike, hvisible]

/-- Moving a generator to another registry gives no value, and changes none of what can be seen. -/
theorem step_of_move (workshop : Workshop σ) {action : Action σ} (moves : action.staysPut = false) :
    (workshop.step action).1 = none ∧ (workshop.step action).2.Alike workshop := by
  cases action with
  | new store locale source => cases moves
  | use place files s =>
    cases s with
    | make task => cases moves
    | withLocale locale => cases moves
    | withRegistry name =>
      cases hworker : workshop.workers[place]? with
      | none =>
        rw [step_of_absent hworker]
        exact ⟨rfl, rfl⟩
      | some worker =>
        rw [step_of_present hworker, workerStep_withRegistry]
        exact ⟨rfl, map_set_of_same hworker (visible_rebind _ _ _ _ _)⟩

/-- Without the moves to other registries a run makes what it made. -/
theorem events_without_moves {other : Workshop σ} (alike : workshop.Alike other)
    (actions : List (Action σ)) :
    other.events (actions.filter (·.staysPut)) =
      (workshop.events actions).filter (·.1.staysPut) := by
  induction actions generalizing workshop other with
  | nil => rfl
  | cons action actions ih =>
    cases hstays : action.staysPut with
    | true =>
      obtain ⟨hresult, hrest⟩ := step_alike alike hstays
      simp only [events, List.filter_cons, hstays, if_true, hresult, ih hrest]
    | false =>
      have hrest := (step_of_move workshop hstays).2.trans alike
      simp only [events, List.filter_cons, hstays, Bool.false_eq_true, if_false, ih hrest]

/-! ## The law of a run -/

/-- At any time of a run, however the generators before it took turns, the registry of a generator
gives the handle that the generator has, and does not grow. Two generators have one handle exactly
when they share a registry and a locale, also if one of them is seen later than the other, and so a
generator that returns to a locale in a registry gets its old handle back. A new generator is alone
in its registry. A generator that moves keeps its locale, and leaves its old registry as it was.
Making values changes no generator and no registry, and without the moves a run makes the same
values and has the same failures. -/
theorem handles_registered_throughout (before between : List (Action σ)) :
    let earlier := (empty : Workshop σ).after before
    let later := earlier.after between
    (∀ generator ∈ earlier.generators,
      earlier.registries.get generator.registry generator.locale =
        (generator.handle, earlier.registries)) ∧
    (∀ generator ∈ earlier.generators, ∀ other ∈ later.generators,
      generator.handle.number = other.handle.number ↔
        generator.registry = other.registry ∧ generator.locale = other.locale) ∧
    (∀ generator ∈ earlier.generators, ∀ place other, later.generators[place]? = some other →
      other.registry = generator.registry → ∀ files,
      let returned := (later.step (.use place files (.withLocale generator.locale))).2
      returned.registries = later.registries ∧
        returned.generators[place]? = some { other with handle := generator.handle }) ∧
    (∀ store locale source,
      let made := (earlier.step (.new store locale source)).2
      ∃ generator, made.generators = earlier.generators ++ [generator] ∧
        generator.store = store ∧ generator.locale = locale ∧
        made.registries.registry generator.registry = [generator.handle] ∧
        ∀ other ∈ earlier.generators, other.registry ≠ generator.registry) ∧
    (∀ place generator, earlier.generators[place]? = some generator → ∀ files name,
      let moved := (earlier.step (.use place files (.withRegistry name))).2
      (∃ other, moved.generators[place]? = some other ∧ other.store = generator.store ∧
        other.registry = name ∧ other.locale = generator.locale) ∧
        moved.registries.registry generator.registry =
          earlier.registries.registry generator.registry) ∧
    (∀ place files task,
      let made := (earlier.step (.use place files (.make task))).2
      made.registries = earlier.registries ∧ made.generators = earlier.generators) ∧
    (empty : Workshop σ).events (before.filter (·.staysPut)) =
      ((empty : Workshop σ).events before).filter (·.1.staysPut) := by
  intro earlier later
  have consistent : earlier.Consistent := consistent_after consistent_empty before
  have consistent_later : later.Consistent := consistent_after consistent between
  refine ⟨?_, ?_, ?_, ?_, ?_, ?_, events_without_moves rfl before⟩
  · intro generator h
    exact consistent.get_locale h
  · intro generator h other hother
    exact number_eq_iff_after consistent between h hother
  · intro generator h place other present same files
    have known := (extends_after earlier between).mem (consistent.held generator h)
    rw [← same] at known
    exact step_withLocale_of_mem consistent_later present known
  · intro store locale source
    exact step_new consistent store locale source
  · intro place generator present files name
    exact step_withRegistry consistent present files name
  · intro place files task
    exact step_make earlier place files task

end Workshop

end FakeData
