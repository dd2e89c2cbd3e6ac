import FakeData.Proofs.Resolution
import FakeData.Proofs.Synthesis
import FakeData.Provider

/-!
# Costs of tasks

Each task draws a number of times that is known before it is made. A task that fails does so
before its first draw, also when it is put together from several others.
-/
namespace FakeData

open Draw (Answer Ends)
open Provider

variable {files : Files} {store : DatasetStore} {locale : Locale} {answers : List Answer}

/-! ## Costs of draws -/

/-- The answers that a result is charged with: so many for a value, and none for a failure. -/
def Charged (count : Nat) (answers : List Answer) : Except Failure String → Prop
  | .ok _ => answers.length = count
  | .error _ => answers = []

/-- However the draw ends, it is charged with so many answers. -/
def Draw.Costs (draw : Draw (Except Failure String)) (count : Nat) : Prop :=
  ∀ answers result, Ends draw answers result → Charged count answers result

theorem costs_always {draw : Draw String} {count : Nat}
    (h : ∀ answers text, Ends draw answers text → answers.length = count) :
    (always draw).Costs count := by
  intro answers result hends
  obtain ⟨first, text, rest, rfl, hfirst, hrest⟩ := Draw.ends_andThen.mp hends
  obtain ⟨rfl, rfl⟩ := Draw.ends_done.mp hrest
  rw [List.append_nil]
  exact h first text hfirst

/-- A change to the value is free. -/
theorem costs_map {draw : Draw (Except Failure String)} {count : Nat} (h : draw.Costs count)
    (f : String → String) : (draw.andThen fun result => .done (result.map f)).Costs count := by
  intro answers result hends
  obtain ⟨first, middle, rest, rfl, hfirst, hrest⟩ := Draw.ends_andThen.mp hends
  obtain ⟨rfl, rfl⟩ := Draw.ends_done.mp hrest
  have hcharged := h first middle hfirst
  rw [List.append_nil]
  cases middle with
  | ok value => exact hcharged
  | error failure => exact hcharged

/-- The domain is drawn only once there is a local part. -/
theorem costs_atDomain {localPart : Draw (Except Failure String)} {domain : Draw String}
    {count more : Nat} (hlocal : localPart.Costs count)
    (hdomain : ∀ answers text, Ends domain answers text → answers.length = more) :
    (atDomain localPart domain).Costs (count + more) := by
  intro answers result hends
  obtain ⟨first, middle, rest, rfl, hfirst, hrest⟩ := Draw.ends_andThen.mp hends
  have hcharged := hlocal first middle hfirst
  cases middle with
  | error failure =>
    obtain ⟨rfl, rfl⟩ := Draw.ends_done.mp hrest
    rw [List.append_nil]
    exact hcharged
  | ok localText =>
    obtain ⟨second, text, last, rfl, hsecond, hlast⟩ := Draw.ends_andThen.mp hrest
    obtain ⟨rfl, rfl⟩ := Draw.ends_done.mp hlast
    have hlength : first.length = count := hcharged
    have hmore := hdomain second text hsecond
    rw [List.append_nil]
    exact (List.length_append ..).trans (by rw [hlength, hmore])

/-! ## Costs of tasks -/

def requestDraws (request : String) (selection : Selection) : Nat :=
  match Request.parse request with
  | .ok parsed => selection.draws parsed.paths.length
  | .error _ => 0

theorem costs_resolve (files : Files) (store : DatasetStore) (locale : Locale) (request : String)
    (selection : Selection) :
    (resolve files store locale request selection).Costs (requestDraws request selection) := by
  intro answers result h
  cases accepted : Request.parse request with
  | error fault =>
    simp only [resolve, accepted, Draw.ends_done] at h
    obtain ⟨rfl, rfl⟩ := h
    rfl
  | ok parsed =>
    cases hmaps : store.valueMaps files locale parsed with
    | error failure =>
      simp only [resolve, accepted, hmaps, Draw.ends_done] at h
      obtain ⟨rfl, rfl⟩ := h
      rfl
    | ok maps =>
      simp only [resolve, accepted, hmaps] at h
      obtain ⟨hlength, nonempty, complete⟩ := DatasetStore.isComplete_of_valueMaps accepted hmaps
      obtain ⟨value, rfl, hcount⟩ := Selection.ends_selectValues nonempty complete h
      have hdraws : requestDraws request selection = selection.draws maps.length := by
        simp only [requestDraws, accepted, hlength]
      rw [hdraws]
      exact hcount

theorem length_answers_done {text other : String} (h : Ends (.done text) answers other) :
    answers.length = 0 := by
  rw [(Draw.ends_done.mp h).1, List.length_nil]

theorem length_answers_domainName {text : String} (h : Ends domainName answers text) :
    answers.length = 4 := by
  obtain ⟨first, label, rest, rfl, hfirst, hrest⟩ := Draw.ends_andThen.mp h
  obtain ⟨rfl, rfl⟩ := Draw.ends_done.mp hrest
  rw [List.append_nil]
  exact Synthesis.length_answers_synthesize hfirst

def Task.draws : Task → Nat
  | .firstName | .lastName => 2
  | .fullName | .fullNameLocalPart _ | .emailWithPersonName _ (some _) => 3
  | .emailWithPersonName _ none => 7
  | .localPart _ _ | .emailWithDomain _ _ _ => 8
  | .domainName => 4
  | .email _ _ => 12
  | .password length _ => length
  | .resolve request selection => requestDraws request selection

theorem costs_fullName (files : Files) (store : DatasetStore) (locale : Locale) :
    (fullName files store locale).Costs 3 := by
  have hdraws : requestDraws fullNameRequest .correlated = 3 := by decide
  rw [← hdraws]
  exact costs_resolve files store locale fullNameRequest .correlated

theorem costs_localPart (uppercase digits : Bool) : (always (localPart uppercase digits)).Costs 8 :=
  costs_always fun _ _ h => Synthesis.length_answers_synthesize h

/-- A task that succeeds draws as often as it says, and one that fails draws nothing. -/
theorem costs_task (files : Files) (store : DatasetStore) (locale : Locale) (task : Task) :
    (task.draw files store locale).Costs task.draws := by
  cases task with
  | firstName =>
    have hdraws : requestDraws firstNameRequest .independent = 2 := by decide
    have hcosts := costs_resolve files store locale firstNameRequest .independent
    rwa [hdraws] at hcosts
  | lastName =>
    have hdraws : requestDraws lastNameRequest .independent = 2 := by decide
    have hcosts := costs_resolve files store locale lastNameRequest .independent
    rwa [hdraws] at hcosts
  | fullName => exact costs_fullName files store locale
  | localPart uppercase digits => exact costs_localPart uppercase digits
  | fullNameLocalPart separator => exact costs_map (costs_fullName files store locale) _
  | domainName => exact costs_always fun _ _ => length_answers_domainName
  | email uppercase digits =>
    exact costs_atDomain (costs_localPart uppercase digits) fun _ _ => length_answers_domainName
  | emailWithDomain uppercase digits domain =>
    exact costs_atDomain (costs_localPart uppercase digits) fun _ _ => length_answers_done
  | emailWithPersonName separator domain =>
    have hname := costs_map (costs_fullName files store locale)
      (Text.replaceChar ' ' (separator.getD standardSeparator))
    cases domain with
    | none => exact costs_atDomain hname fun _ _ => length_answers_domainName
    | some domain => exact costs_atDomain hname fun _ _ => length_answers_done
  | password length classes =>
    exact costs_always fun _ _ h => Synthesis.length_answers_synthesize h
  | resolve request selection => exact costs_resolve files store locale request selection

end FakeData
