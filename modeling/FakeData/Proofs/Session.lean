import FakeData.Generator
import FakeData.Proofs.Provider

/-!
# Events of a session

A run is a list of events: each step, with what it gave and the bounds it drew. A step that fails
leaves the session and the source as they were, so failing steps can be taken out of a run, or put
into one, and every other event stays the same.
-/
namespace FakeData

open Draw (Answer Ends)

variable {σ : Type} [IndexSource σ] {files : Files} {session : Session} {s : Step} {source : σ}

/-! ## Steps -/

def Step.draws : Step → Nat
  | .make task => task.draws
  | .withLocale _ | .withRegistry _ => 0

namespace Session

structure Event where
  step : Step
  result : Option (Except Failure String)
  bounds : List Nat

def Event.Failed (event : Event) : Prop := ∃ failure, event.result = some (.error failure)

def event (files : Files) (session : Session) (s : Step) (source : σ) : Event :=
  ⟨s, ((session.step files s).run source).1.1, (session.step files s).bounds source⟩

def after (files : Files) (session : Session) (s : Step) (source : σ) : Session × σ :=
  (((session.step files s).run source).1.2, ((session.step files s).run source).2)

theorem run_make (files : Files) (session : Session) (task : Task) (source : σ) :
    (session.step files (.make task)).run source =
      ((some ((session.generator.make files task).run source).1, session),
        ((session.generator.make files task).run source).2) := by
  rw [step, Draw.run_andThen, Draw.run_done]

theorem bounds_make (files : Files) (session : Session) (task : Task) (source : σ) :
    (session.step files (.make task)).bounds source =
      (session.generator.make files task).bounds source := by
  rw [step, Draw.bounds_andThen, Draw.bounds_done, List.append_nil]

/-- A failure costs nothing and changes nothing. Anything else costs what the step says. -/
theorem event_cases (files : Files) (session : Session) (s : Step) (source : σ) :
    ((event files session s source).Failed ∧ (event files session s source).bounds = [] ∧
        after files session s source = (session, source)) ∨
      (¬(event files session s source).Failed ∧
        (event files session s source).bounds.length = s.draws) := by
  cases s with
  | make task =>
    have hcharged := costs_task files session.generator.store session.generator.locale task
      _ _ (Draw.ends_run _ source)
    have hbounds := Draw.bounds_eq_answers (session.generator.make files task) source
    simp only [event, after, Event.Failed, run_make, bounds_make, Step.draws]
    cases hresult : ((session.generator.make files task).run source).1 with
    | ok value =>
      rw [← Generator.make, hresult] at hcharged
      have hlength : ((session.generator.make files task).answers source).length = task.draws :=
        hcharged
      exact .inr ⟨by simp, by rw [hbounds, List.length_map, hlength]⟩
    | error failure =>
      rw [← Generator.make, hresult] at hcharged
      have hnone : (session.generator.make files task).answers source = [] := hcharged
      rw [hnone, List.map_nil] at hbounds
      exact .inl ⟨⟨failure, rfl⟩, hbounds, by rw [Draw.run_snd_of_bounds_eq_nil hbounds]⟩
  | withLocale locale => exact .inr ⟨by rintro ⟨failure, ⟨⟩⟩, rfl⟩
  | withRegistry registry => exact .inr ⟨by rintro ⟨failure, ⟨⟩⟩, rfl⟩

example : (event files session (.make (.resolve "name" .independent)) source).Failed :=
  ⟨.malformedRequest "name" .missingOpen, rfl⟩

/-! ## Runs -/

def events (files : Files) : Session → List Step → σ → List Event
  | _, [], _ => []
  | session, s :: steps, source =>
    event files session s source ::
      events files (after files session s source).1 steps (after files session s source).2

def afterAll (files : Files) (session : Session) (steps : List Step) (source : σ) : Session × σ :=
  (((session.run files steps).run source).1.2, ((session.run files steps).run source).2)

theorem run_cons (files : Files) (session : Session) (s : Step) (steps : List Step) (source : σ) :
    (session.run files (s :: steps)).run source =
      let rest := ((after files session s source).1.run files steps).run
        (after files session s source).2
      (((event files session s source).result :: rest.1.1, rest.1.2), rest.2) := by
  rw [run, Draw.run_andThen, Draw.run_andThen]
  rfl

theorem afterAll_cons (files : Files) (session : Session) (s : Step) (steps : List Step)
    (source : σ) : afterAll files session (s :: steps) source =
      afterAll files (after files session s source).1 steps (after files session s source).2 := by
  rw [afterAll, run_cons]
  rfl

theorem map_step_events (steps : List Step) :
    (events files session steps source).map Event.step = steps := by
  induction steps generalizing session source with
  | nil => rfl
  | cons s steps ih => rw [events, List.map_cons, ih]; rfl

theorem map_result_events (steps : List Step) :
    (events files session steps source).map Event.result =
      ((session.run files steps).run source).1.1 := by
  induction steps generalizing session source with
  | nil => rfl
  | cons s steps ih => rw [events, List.map_cons, ih, run_cons]

theorem flatMap_bounds_events (steps : List Step) :
    (events files session steps source).flatMap Event.bounds =
      (session.run files steps).bounds source := by
  induction steps generalizing session source with
  | nil => rfl
  | cons s steps ih =>
    rw [events, List.flatMap_cons, ih, run, Draw.bounds_andThen, Draw.bounds_andThen,
      Draw.bounds_done, List.append_nil]
    rfl

theorem event_of_mem_events {steps : List Step} {e : Event}
    (h : e ∈ events files session steps source) :
    (e.Failed → e.bounds = []) ∧ (¬e.Failed → e.bounds.length = e.step.draws) := by
  induction steps generalizing session source with
  | nil => cases h
  | cons s steps ih =>
    rcases List.mem_cons.mp h with rfl | h
    · rcases event_cases files session s source with ⟨failed, free, -⟩ | ⟨succeeded, hlength⟩
      · exact ⟨fun _ => free, fun h => absurd failed h⟩
      · exact ⟨fun h => absurd h succeeded, fun _ => hlength⟩
    · exact ih h

/-! ## Failing steps in a run -/

/-- The second events are the first without some that failed. -/
inductive Thinned : List Event → List Event → Prop where
  | nil : Thinned [] []
  | keep (e : Event) {long short : List Event} (rest : Thinned long short) :
      Thinned (e :: long) (e :: short)
  | drop {e : Event} (failed : e.Failed) {long short : List Event} (rest : Thinned long short) :
      Thinned (e :: long) short

/-- The second steps are the first and some more, each of which fails where it is put. -/
inductive Extended (files : Files) : Session → σ → List Step → List Step → Prop where
  | nil (session : Session) (source : σ) : Extended files session source [] []
  | keep {session : Session} {source : σ} (s : Step) {short long : List Step}
      (rest : Extended files (after files session s source).1 (after files session s source).2
        short long) : Extended files session source (s :: short) (s :: long)
  | put {session : Session} {source : σ} {s : Step}
      (failed : (event files session s source).Failed) {short long : List Step}
      (rest : Extended files session source short long) :
      Extended files session source short (s :: long)

theorem after_of_failed (failed : (event files session s source).Failed) :
    after files session s source = (session, source) := by
  rcases event_cases files session s source with ⟨-, -, hafter⟩ | ⟨succeeded, -⟩
  · exact hafter
  · exact absurd failed succeeded

/-- Without some failing steps a run has the same other events, and ends as it did. -/
theorem events_of_thinned {steps : List Step} {kept : List Event}
    (h : Thinned (events files session steps source) kept) :
    events files session (kept.map Event.step) source = kept ∧
      afterAll files session (kept.map Event.step) source =
        afterAll files session steps source := by
  induction steps generalizing session source kept with
  | nil =>
    cases h
    exact ⟨rfl, rfl⟩
  | cons s steps ih =>
    rw [events] at h
    cases h with
    | keep _ rest =>
      obtain ⟨hevents, hafter⟩ := ih rest
      refine ⟨?_, ?_⟩
      · rw [List.map_cons, events]
        exact congrArg _ hevents
      · rw [afterAll_cons files session s steps, ← hafter]
        exact afterAll_cons files session s _ source
    | drop failed rest =>
      rw [after_of_failed failed] at rest
      obtain ⟨hevents, hafter⟩ := ih rest
      exact ⟨hevents, by rw [hafter, afterAll_cons, after_of_failed failed]⟩

/-- With some failing steps put into it a run keeps its events, and ends as it did. -/
theorem thinned_of_extended {short long : List Step}
    (h : Extended files session source short long) :
    Thinned (events files session long source) (events files session short source) ∧
      afterAll files session long source = afterAll files session short source := by
  induction h with
  | nil session source => exact ⟨.nil, rfl⟩
  | keep s rest ih =>
    obtain ⟨hthinned, hafter⟩ := ih
    exact ⟨.keep _ hthinned, by rw [afterAll_cons, afterAll_cons, hafter]⟩
  | put failed rest ih =>
    obtain ⟨hthinned, hafter⟩ := ih
    have hsame := after_of_failed failed
    refine ⟨?_, ?_⟩
    · rw [events, hsame]
      exact .drop failed hthinned
    · rw [afterAll_cons, hsame, hafter]

/-- Each event of a run draws as often as its step says, or not at all when it failed. Hence the
failing steps of a run can be taken out, and others can be put in, without a change to the events
of any other step or to the session and the source at the end. -/
theorem run_draws_accounted (files : Files) (session : Session) (steps : List Step) (source : σ) :
    let history := events files session steps source
    (history.map Event.step = steps ∧
        history.map Event.result = ((session.run files steps).run source).1.1 ∧
        history.flatMap Event.bounds = (session.run files steps).bounds source) ∧
      (∀ e ∈ history, (e.Failed → e.bounds = []) ∧ (¬e.Failed → e.bounds.length = e.step.draws)) ∧
      (∀ kept, Thinned history kept →
        events files session (kept.map Event.step) source = kept ∧
          afterAll files session (kept.map Event.step) source =
            afterAll files session steps source) ∧
      ∀ long, Extended files session source steps long →
        Thinned (events files session long source) history ∧
          afterAll files session long source = afterAll files session steps source := by
  intro history
  exact ⟨⟨map_step_events steps, map_result_events steps, flatMap_bounds_events steps⟩,
    fun e => event_of_mem_events, fun kept => events_of_thinned, fun long => thinned_of_extended⟩

end Session

end FakeData
