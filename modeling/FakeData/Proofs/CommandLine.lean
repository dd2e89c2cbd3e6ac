import FakeData.CommandLine.Outcome
import FakeData.Proofs.Session

/-!
# Outcomes of the command line

Values are printed as soon as they are made, so a failure may come after some output. It does not:
a task that can fail with some source fails with every source before its first draw. Hence a run
prints as many values as it was asked for, or none.
-/
namespace FakeData

variable {σ : Type} [IndexSource σ] {files : Files} {generator : Generator} {task : Task}
  {failure : Failure}

/-! ## Failures and sources -/

/-- A draw that is charged for values only does not leave it to the source whether it fails. -/
theorem Draw.Costs.fails_or_succeeds {draw : Draw (Except Failure String)} {count : Nat}
    (h : draw.Costs count) :
    (∃ failure, draw = .done (.error failure)) ∨
      ∀ source : σ, ∃ value, (draw.run source).1 = .ok value := by
  cases draw with
  | done result =>
    cases result with
    | error failure => exact .inl ⟨failure, rfl⟩
    | ok value => exact .inr fun source => ⟨value, rfl⟩
  | ask bound positive next =>
    refine .inr fun source => ?_
    have hcharged := h _ _ (Draw.ends_run (.ask bound positive next) source)
    cases hresult : ((Draw.ask bound positive next).run source).1 with
    | ok value => exact ⟨value, rfl⟩
    | error failure =>
      -- A failure has no answers, and this draw has asked for one.
      rw [hresult] at hcharged
      cases hcharged

namespace Generator

/-- Whatever the source, the generator makes a value of the task. -/
def Succeeds (σ : Type) [IndexSource σ] (generator : Generator) (files : Files) (task : Task) :
    Prop :=
  ∀ source : σ, ∃ value, ((generator.make files task).run source).1 = .ok value

theorem fails_or_succeeds (generator : Generator) (files : Files) (task : Task) :
    (∃ failure, generator.make files task = .done (.error failure)) ∨
      generator.Succeeds σ files task :=
  (costs_task files generator.store generator.locale task).fails_or_succeeds

/-! ## Many values -/

theorem makeMany_succ (generator : Generator) (files : Files) (task : Task) (count : Nat)
    (source : σ) :
    generator.makeMany files task (count + 1) source =
      match ((generator.make files task).run source).1 with
      | .error failure => ([], some failure)
      | .ok value =>
        let made := generator.makeMany files task count ((generator.make files task).run source).2
        (value :: made.1, made.2) := by
  rw [makeMany]
  cases hresult : (generator.make files task).run source with
  | mk result rest => cases result <;> rfl

theorem makeMany_succ_of_ok {source : σ} {value : String}
    (h : ((generator.make files task).run source).1 = .ok value) (count : Nat) :
    generator.makeMany files task (count + 1) source =
      let made := generator.makeMany files task count ((generator.make files task).run source).2
      (value :: made.1, made.2) := by
  rw [makeMany_succ, h]

theorem makeMany_succ_of_error {source : σ}
    (h : ((generator.make files task).run source).1 = .error failure) (count : Nat) :
    generator.makeMany files task (count + 1) source = ([], some failure) := by
  rw [makeMany_succ, h]

/-- Asking for more values does not change the first ones. -/
theorem makeMany_prefix (generator : Generator) (files : Files) (task : Task) {few more : Nat}
    (h : few ≤ more) (source : σ) :
    (generator.makeMany files task few source).1 <+:
      (generator.makeMany files task more source).1 := by
  induction few generalizing more source with
  | zero => exact List.nil_prefix
  | succ few ih =>
    obtain ⟨more, rfl⟩ := Nat.exists_eq_add_of_lt h
    cases hresult : ((generator.make files task).run source).1 with
    | error failure =>
      -- Both runs end at this call.
      simp only [makeMany_succ_of_error hresult, List.prefix_rfl]
    | ok value =>
      rw [makeMany_succ_of_ok hresult, makeMany_succ_of_ok hresult, List.prefix_cons_inj]
      exact ih (Nat.le_add_right few more) _

end Generator

def Session.calls (files : Files) (session : Session) (task : Task) (count : Nat) (source : σ) :
    List (Option (Except Failure String)) :=
  ((session.run files (List.replicate count (.make task))).run source).1.1

theorem Session.calls_succ (files : Files) (session : Session) (task : Task) (count : Nat)
    (source : σ) :
    session.calls files task (count + 1) source =
      some ((session.generator.make files task).run source).1 ::
        session.calls files task count ((session.generator.make files task).run source).2 := by
  rw [calls, List.replicate_succ, run_cons, event, after, run_make]
  rfl

/-- Where no call can fail, so many values are made as are asked for, and each is what one call
gives. -/
theorem Generator.Succeeds.makeMany {session : Session}
    (succeeds : session.generator.Succeeds σ files task) (count : Nat) (source : σ) :
    ∃ values, values.length = count ∧
      session.calls files task count source = values.map (some <| .ok ·) ∧
      session.generator.makeMany files task count source = (values, none) := by
  induction count generalizing source with
  | zero => exact ⟨[], rfl, rfl, rfl⟩
  | succ count ih =>
    obtain ⟨value, hvalue⟩ := succeeds source
    obtain ⟨values, hlength, hcalls, hmade⟩ :=
      ih ((session.generator.make files task).run source).2
    refine ⟨value :: values, by rw [List.length_cons, hlength], ?_, ?_⟩
    · rw [Session.calls_succ, hvalue, hcalls, List.map_cons]
    · rw [makeMany_succ_of_ok hvalue, hmade]

namespace CommandLine

variable {env : Environment} {args : List String} {invocation : Invocation} {config : Config}
  {session : Session} {key : Random.Key}

/-! ## Invocations -/

/-- The configuration that is in effect, and the generator that is built from it. -/
structure Invocation.Builds (invocation : Invocation) (files : Files) (config : Config)
    (session : Session) : Prop where
  loaded : Config.load files invocation.configPath invocation.settings = .ok config
  built : config.generator .empty registry = .ok (session.generator, session.registries)

theorem Invocation.Builds.unique {other : Config} {otherSession : Session}
    (builds : invocation.Builds files config session)
    (builds' : invocation.Builds files other otherSession) :
    config = other ∧ session = otherSession := by
  obtain ⟨rfl⟩ := Except.ok.inj (builds.loaded.symm.trans builds'.loaded)
  have hpair := Except.ok.inj (builds.built.symm.trans builds'.built)
  cases session
  cases otherSession
  cases hpair
  exact ⟨rfl, rfl⟩

/-- Without a generator nothing is printed. With one, the outcome is that of its values, unless
some text cannot be held. -/
theorem Invocation.run_cases (invocation : Invocation) (files : Files) (key : Random.Key) :
    ((¬∃ config session, invocation.Builds files config session) ∧
        (invocation.run files key).code = 1 ∧ (invocation.run files key).output = "") ∨
      ∃ config session, invocation.Builds files config session ∧
        invocation.run files key =
          if invocation.task.isExcessive ∧ invocation.count ≠ 0 then .excess
          else
            outcomeOf (session.generator.makeMany files invocation.task invocation.count
              (config.stream key)) := by
  cases hload : Config.load files invocation.configPath invocation.settings with
  | error fault =>
    have hrun : invocation.run files key =
        .failure "" ["Failed to load configuration", fault.message, fault.cause] := by
      simp only [run, hload]
    refine .inl ⟨?_, by rw [hrun]; rfl, by rw [hrun]; rfl⟩
    rintro ⟨config, session, builds⟩
    rw [builds.loaded] at hload
    cases hload
  | ok config =>
    cases hbuild : config.generator .empty registry with
    | error fault =>
      have hrun : invocation.run files key =
          .failure "" ["Failed to build generator", fault.message, fault.cause] := by
        simp only [run, hload, hbuild]
      refine .inl ⟨?_, by rw [hrun]; rfl, by rw [hrun]; rfl⟩
      rintro ⟨other, session, builds⟩
      obtain ⟨rfl⟩ := Except.ok.inj (builds.loaded.symm.trans hload)
      rw [builds.built] at hbuild
      cases hbuild
    | ok built =>
      exact .inr ⟨config, ⟨built.1, built.2⟩, ⟨hload, hbuild⟩, by simp only [run, hload, hbuild]⟩

/-- No text of a run is too long to be held. -/
def Invocation.Holdable (invocation : Invocation) : Prop :=
  invocation.count ≠ 0 → invocation.task.isExcessive = false

theorem Invocation.Builds.run_eq (builds : invocation.Builds files config session)
    (held : invocation.Holdable) (key : Random.Key) :
    invocation.run files key =
      outcomeOf (session.generator.makeMany files invocation.task invocation.count
        (config.stream key)) := by
  rcases run_cases invocation files key with ⟨none, -⟩ | ⟨other, otherSession, builds', hrun⟩
  · exact absurd ⟨config, session, builds⟩ none
  · obtain ⟨rfl, rfl⟩ := builds.unique builds'
    rw [hrun, if_neg]
    rintro ⟨excessive, counted⟩
    rw [held counted] at excessive
    cases excessive

theorem output_outcomeOf (made : List String × Option Failure) :
    (outcomeOf made).output = lines made.1 := by
  obtain ⟨values, _ | failure⟩ := made <;> rfl

/-- There is nothing to make, or it can be made with every source. -/
def Invocation.Served (invocation : Invocation) (files : Files) (generator : Generator) : Prop :=
  invocation.count = 0 ∨ generator.Succeeds Random.WordStream files invocation.task

/-- All values are there, or already the first one failed. Which of the two it is does not depend
on the key. -/
theorem Invocation.Builds.run_values (builds : invocation.Builds files config session)
    (held : invocation.Holdable) (key : Random.Key) :
    (invocation.Served files session.generator ∧ ∃ values, values.length = invocation.count ∧
        session.calls files invocation.task invocation.count (config.stream key) =
          values.map (some <| .ok ·) ∧
        invocation.run files key = ⟨0, lines values, ""⟩) ∨
      (¬invocation.Served files session.generator ∧
        (∃ failure, some (.error failure) ∈
          session.calls files invocation.task invocation.count (config.stream key)) ∧
        (invocation.run files key).code = 1 ∧ (invocation.run files key).output = "") := by
  have htask : (∃ failure, session.generator.make files invocation.task = .done (.error failure)) ∨
      session.generator.Succeeds Random.WordStream files invocation.task :=
    session.generator.fails_or_succeeds files invocation.task
  rw [builds.run_eq held]
  rcases htask with ⟨failure, hmake⟩ | succeeds
  · -- Such a task fails only if it is called.
    cases hcount : invocation.count with
    | zero => exact .inl ⟨.inl hcount, [], rfl, rfl, rfl⟩
    | succ count =>
      have hfails : ((session.generator.make files invocation.task).run (config.stream key)).1 =
          .error failure := by rw [hmake, Draw.run_done]
      refine .inr ⟨?_, ⟨failure, ?_⟩, ?_, ?_⟩
      · rintro (none | succeeds)
        · rw [hcount] at none
          cases none
        · obtain ⟨value, hvalue⟩ := succeeds (config.stream key)
          rw [hfails] at hvalue
          cases hvalue
      · rw [Session.calls_succ, hfails]
        exact List.mem_cons_self
      · rw [Generator.makeMany_succ_of_error hfails]
        rfl
      · rw [Generator.makeMany_succ_of_error hfails]
        rfl
  · obtain ⟨values, hlength, hcalls, hmade⟩ :=
      succeeds.makeMany invocation.count (config.stream key)
    exact .inl ⟨.inr succeeds, values, hlength, hcalls, by rw [hmade]; rfl⟩

theorem lines_append (values others : List String) :
    lines (values ++ others) = lines values ++ lines others := by
  rw [lines, List.map_append, String.join_append]
  rfl

/-- A run prints a value for each call, or it fails and prints nothing. -/
theorem Invocation.run_complete_or_failed (held : invocation.Holdable) (files : Files)
    (key : Random.Key) :
    (∃ config session values, invocation.Builds files config session ∧
        values.length = invocation.count ∧
        session.calls files invocation.task invocation.count (config.stream key) =
          values.map (some <| .ok ·) ∧
        invocation.run files key = ⟨0, lines values, ""⟩) ∨
      ((invocation.run files key).code = 1 ∧ (invocation.run files key).output = "") := by
  rcases run_cases invocation files key with ⟨-, failed⟩ | ⟨config, session, builds, -⟩
  · exact .inr failed
  · rcases builds.run_values held key with ⟨-, values, made⟩ | ⟨-, -, failed⟩
    · exact .inl ⟨config, session, values, builds, made⟩
    · exact .inr failed

theorem Invocation.code_eq_zero_iff (held : invocation.Holdable) :
    (invocation.run files key).code = 0 ↔
      ∃ config session, invocation.Builds files config session ∧
        invocation.Served files session.generator := by
  rcases run_cases invocation files key with ⟨none, hcode, -⟩ | ⟨config, session, builds, -⟩
  · rw [hcode]
    refine iff_of_false Nat.one_ne_zero ?_
    rintro ⟨config, session, builds, -⟩
    exact none ⟨config, session, builds⟩
  · rcases builds.run_values held key with ⟨served, values, -, -, hrun⟩ | ⟨unserved, -, hcode, -⟩
    · rw [hrun]
      exact iff_of_true rfl ⟨config, session, builds, served⟩
    · rw [hcode]
      refine iff_of_false Nat.one_ne_zero ?_
      rintro ⟨other, otherSession, builds', served⟩
      obtain ⟨-, rfl⟩ := builds.unique builds'
      exact unserved served

theorem Invocation.code_eq_one_iff (held : invocation.Holdable) :
    (invocation.run files key).code = 1 ↔ (invocation.run files key).code ≠ 0 := by
  rcases run_complete_or_failed held files key with ⟨_, _, _, -, -, -, hrun⟩ | ⟨hcode, -⟩
  · rw [hrun]
    exact iff_of_false Nat.zero_ne_one (not_not_intro rfl)
  · exact iff_of_true hcode (hcode ▸ Nat.one_ne_zero)

/-- A run succeeds exactly when all of its calls do. -/
theorem Invocation.Builds.code_eq_zero_iff_calls (builds : invocation.Builds files config session)
    (held : invocation.Holdable) (key : Random.Key) :
    (invocation.run files key).code = 0 ↔
      ∀ result ∈ session.calls files invocation.task invocation.count (config.stream key),
        ∃ value, result = some (.ok value) := by
  rcases builds.run_values held key with
    ⟨-, values, -, hcalls, hrun⟩ | ⟨-, ⟨failure, hfailure⟩, hcode, -⟩
  · rw [hrun, hcalls]
    refine iff_of_true rfl ?_
    intro result hresult
    obtain ⟨value, -, rfl⟩ := List.mem_map.mp hresult
    exact ⟨value, rfl⟩
  · rw [hcode]
    refine iff_of_false Nat.one_ne_zero ?_
    intro succeeded
    obtain ⟨value, ⟨⟩⟩ := succeeded _ hfailure

/-- A run that is asked for nothing needs a generator all the same, but neither a request that can
be read nor a dataset. -/
theorem Invocation.run_of_count_eq_zero {locale : Locale} (none : invocation.count = 0)
    (loaded : Config.load files invocation.configPath invocation.settings = .ok config)
    (resolved : config.locale = .ok locale) (key : Random.Key) :
    invocation.run files key = ⟨0, "", ""⟩ := by
  have built : config.generator .empty registry =
      .ok (Generator.new .empty registry ⟨config.root⟩ locale) := by
    rw [Config.generator, resolved]
  have builds : invocation.Builds files config ⟨_, _⟩ := ⟨loaded, built⟩
  rw [builds.run_eq (absurd none), none]
  rfl

/-! ## Runs that differ in their count -/

theorem stream_eq {other : Random.Key} (seeded : config.seed.isSome ∨ other = key) :
    config.stream other = config.stream key := by
  rcases seeded with seeded | rfl
  · obtain ⟨seed, hseed⟩ := Option.isSome_iff_exists.mp seeded
    rw [Config.stream, Config.stream, hseed]
  · rfl

theorem Invocation.Builds.withCount (builds : invocation.Builds files config session)
    (count : Nat) : { invocation with count }.Builds files config session :=
  ⟨builds.loaded, builds.built⟩

/-- With the same seed the output grows with the count. -/
theorem Invocation.output_prefix (held : invocation.Holdable) {count : Nat}
    (h : invocation.count ≤ count) {other : Random.Key}
    (seeded : ∀ config, Config.load files invocation.configPath invocation.settings = .ok config →
      config.seed.isSome ∨ other = key) :
    ∃ rest, ({ invocation with count }.run files other).output =
      (invocation.run files key).output ++ rest := by
  rcases run_cases invocation files key with ⟨-, -, hnone⟩ | ⟨config, session, builds, -⟩
  · exact ⟨_, by rw [hnone, String.empty_append]⟩
  · by_cases none : invocation.count = 0
    · -- The longer run may ask for a text that cannot be held, but nothing was printed before.
      have hnone : (invocation.run files key).output = "" := by
        rw [builds.run_eq held, none]
        rfl
      exact ⟨_, by rw [hnone, String.empty_append]⟩
    · obtain ⟨rest, hrest⟩ := session.generator.makeMany_prefix files invocation.task h
        (config.stream key)
      refine ⟨lines rest, ?_⟩
      rw [builds.run_eq held, (builds.withCount count).run_eq fun _ => held none,
        stream_eq (seeded config builds.loaded), output_outcomeOf, output_outcomeOf,
        ← lines_append, hrest]

/-- Whether a run that makes something succeeds depends neither on how much it makes nor on its
key. -/
theorem Invocation.code_withCount (held : invocation.Holdable) {count : Nat}
    (counted : invocation.count ≠ 0) (others : count ≠ 0) (files : Files) (key other : Random.Key) :
    ({ invocation with count }.run files other).code = (invocation.run files key).code := by
  have held' : { invocation with count }.Holdable := fun _ => held counted
  have same : ({ invocation with count }.run files other).code = 0 ↔
      (invocation.run files key).code = 0 := by
    rw [code_eq_zero_iff held, code_eq_zero_iff held']
    simp only [Served, counted, others, false_or]
    constructor
    · rintro ⟨config, session, builds, succeeds⟩
      exact ⟨config, session, ⟨builds.loaded, builds.built⟩, succeeds⟩
    · rintro ⟨config, session, builds, succeeds⟩
      exact ⟨config, session, builds.withCount count, succeeds⟩
  by_cases h : (invocation.run files key).code = 0
  · rw [h, same.mpr h]
  · rw [(code_eq_one_iff held).mpr h, (code_eq_one_iff held').mpr (mt same.mp h)]

/-! ## The law of a run -/

theorem run_of_parse (parsed : Invocation.parse env args = some invocation) (files : Files)
    (key : Random.Key) : run env files key args = invocation.run files key := by
  rw [run, parsed]

/-- A run that is asked for some values prints all of them, each on a line of its own, or it fails
and prints nothing. What it prints are the values of as many successive calls of one generator for
the configuration in effect, and it succeeds exactly when these calls do. If it is asked for no
value it succeeds as soon as there is a generator. With the same seed a run that is asked for more
values prints these first, and whether a run succeeds is not up to its randomness. -/
theorem run_all_or_nothing (parsed : Invocation.parse env args = some invocation)
    (held : invocation.Holdable) (files : Files) (key : Random.Key) :
    ((∃ config session, ∃ values : List String, invocation.Builds files config session ∧
          values.length = invocation.count ∧
          session.calls files invocation.task invocation.count (config.stream key) =
            values.map (some <| .ok ·) ∧
          run env files key args = ⟨0, String.join (values.map (· ++ "\n")), ""⟩) ∨
        ((run env files key args).code = 1 ∧ (run env files key args).output = "")) ∧
      (∀ config session, invocation.Builds files config session →
        ((run env files key args).code = 0 ↔
          ∀ result ∈ session.calls files invocation.task invocation.count (config.stream key),
            ∃ value, result = some (.ok value))) ∧
      (∀ config locale,
        Config.load files invocation.configPath invocation.settings = .ok config →
        config.locale = .ok locale → invocation.count = 0 →
        run env files key args = ⟨0, "", ""⟩) ∧
      ∀ moreArgs more other,
        Invocation.parse env moreArgs = some { invocation with count := more } →
        invocation.count ≤ more →
        ((∀ config,
            Config.load files invocation.configPath invocation.settings = .ok config →
            config.seed.isSome ∨ other = key) →
          ∃ rest, (run env files other moreArgs).output =
            (run env files key args).output ++ rest) ∧
        (invocation.count ≠ 0 →
          (run env files other moreArgs).code = (run env files key args).code) := by
  rw [run_of_parse parsed]
  refine ⟨Invocation.run_complete_or_failed held files key, ?_, ?_, ?_⟩
  · intro config session builds
    exact builds.code_eq_zero_iff_calls held key
  · intro config locale loaded resolved none
    exact Invocation.run_of_count_eq_zero none loaded resolved key
  · intro moreArgs more other parsedMore fewer
    rw [run_of_parse parsedMore]
    refine ⟨Invocation.output_prefix held fewer, ?_⟩
    intro counted
    exact Invocation.code_withCount held counted (by omega) files key other

/-- Two passwords from one seed are the first two of three. -/
theorem run_two_of_three_passwords :
    let two : Invocation := ⟨none, ⟨none, none, none, some 7⟩, 2, .password 12 .lowercaseOnly⟩
    Invocation.parse (fun _ => none) ["--seed", "7", "--count=2", "password"] = some two ∧
      two.Holdable ∧
      ∃ rest,
        (run (fun _ => none) (fun _ => .error .missing) (.replicate 8 1)
          ["--count", "3", "--seed", "7", "password"]).output =
        (run (fun _ => none) (fun _ => .error .missing) (.replicate 8 0)
          ["--seed", "7", "--count=2", "password"]).output ++ rest := by
  intro two
  have parsed : Invocation.parse (fun _ => none) ["--seed", "7", "--count=2", "password"] =
      some two := by
    decide +kernel
  have parsedMore : Invocation.parse (fun _ => none)
      ["--count", "3", "--seed", "7", "password"] = some { two with count := 3 } := by
    decide +kernel
  have held : two.Holdable := fun _ => rfl
  have law := run_all_or_nothing parsed held (fun _ => .error .missing) (.replicate 8 0)
  refine ⟨parsed, held, (law.2.2.2 _ 3 (.replicate 8 1) parsedMore (by decide)).1 ?_⟩
  rintro config ⟨⟩
  exact .inl rfl

end CommandLine

end FakeData
