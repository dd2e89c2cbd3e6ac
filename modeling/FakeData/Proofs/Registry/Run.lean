import FakeData.Proofs.Registry
import Mathlib.Data.Finset.Card

/-!
# Runs of calls

Any number of calls to any number of registries, in any order. A handle stands for one registry
and one locale, however long the run goes on, and what a registry answers depends only on the
locales that it was asked for before.
-/
namespace FakeData

/-! ## Calls -/

inductive RegistryCall where
  | get (name : Nat) (locale : Locale)
  | contains (name : Nat) (locale : Locale)
  | size (name : Nat)
  | isEmpty (name : Nat)
  deriving DecidableEq, Repr

inductive RegistryAnswer where
  | handle (given : Handle)
  | truth (value : Bool)
  | count (number : Nat)
  deriving DecidableEq, Repr

namespace RegistryCall

def name : RegistryCall → Nat
  | .get name _ | .contains name _ | .size name | .isEmpty name => name

def isGet : RegistryCall → Bool
  | .get _ _ => true
  | _ => false

def wanted? (name : Nat) : RegistryCall → Option Locale
  | .get other locale => if other = name then some locale else none
  | _ => none

theorem wanted?_eq_some_iff {name : Nat} {locale : Locale} {call : RegistryCall} :
    call.wanted? name = some locale ↔ call = .get name locale := by
  cases call <;> simp [wanted?]

end RegistryCall

/-- The answer with nothing told of the number of a handle. -/
def RegistryAnswer.unnumbered : RegistryAnswer → RegistryAnswer
  | .handle given => .handle { given with number := 0 }
  | answer => answer

def wanted (name : Nat) (calls : List RegistryCall) : List Locale :=
  calls.filterMap (RegistryCall.wanted? name)

theorem mem_wanted {name : Nat} {locale : Locale} {calls : List RegistryCall} :
    locale ∈ wanted name calls ↔ .get name locale ∈ calls := by
  simp only [wanted, List.mem_filterMap, RegistryCall.wanted?_eq_some_iff, exists_eq_right]

namespace Registries

def answer (registries : Registries) : RegistryCall → RegistryAnswer × Registries
  | .get name locale =>
    let got := registries.get name locale
    (.handle got.1, got.2)
  | .contains name locale => (.truth (registries.contains name locale), registries)
  | .size name => (.count (registries.size name), registries)
  | .isEmpty name => (.truth (registries.isEmpty name), registries)

def run : Registries → List RegistryCall → List RegistryAnswer × Registries
  | registries, [] => ([], registries)
  | registries, call :: calls =>
    let rest := (registries.answer call).2.run calls
    ((registries.answer call).1 :: rest.1, rest.2)

variable {registries : Registries} {call : RegistryCall} {calls : List RegistryCall} {name : Nat}

theorem sound_answer (sound : registries.Sound) (call : RegistryCall) :
    (registries.answer call).2.Sound := by
  cases call with
  | get name locale => exact sound_get sound name locale
  | _ => exact sound

theorem extends_answer (registries : Registries) (call : RegistryCall) :
    registries.Extends (registries.answer call).2 := by
  cases call with
  | get name locale => exact extends_get registries name locale
  | _ => exact .refl registries

/-- Only getting a handle changes anything. -/
theorem answer_of_not_get (asking : call.isGet = false) :
    (registries.answer call).2 = registries := by
  cases call with
  | get name locale => cases asking
  | _ => rfl

theorem answer_other (registries : Registries) (apart : call.name ≠ name) :
    (registries.answer call).2.registry name = registries.registry name := by
  cases call with
  | get other locale => exact get_other registries locale (Ne.symm apart)
  | _ => rfl

/-- The locales of every registry are those that it was asked for. -/
def Holds (registries : Registries) (calls : List RegistryCall) : Prop :=
  ∀ name locale, locale ∈ registries.locales name ↔ .get name locale ∈ calls

theorem holds_empty : empty.Holds [] := by
  intro name locale
  exact iff_of_false List.not_mem_nil List.not_mem_nil

theorem holds_answer {earlier : List RegistryCall} (holds : registries.Holds earlier)
    (call : RegistryCall) : (registries.answer call).2.Holds (earlier ++ [call]) := by
  intro name locale
  rw [List.mem_append, List.mem_singleton, ← holds name locale]
  cases call with
  | get other asked =>
    by_cases same : other = name
    · subst same
      simpa [answer] using mem_locales_get
    · have hother : (registries.get other asked).2.locales name = registries.locales name :=
        congrArg _ (get_other registries asked (Ne.symm same))
      simp [answer, hother, Ne.symm same]
  | _ => simp [answer]

/-! ## Runs -/

theorem sound_run (sound : registries.Sound) (calls : List RegistryCall) :
    (registries.run calls).2.Sound := by
  induction calls generalizing registries with
  | nil => exact sound
  | cons call calls ih => exact ih (sound_answer sound call)

theorem extends_run (registries : Registries) (calls : List RegistryCall) :
    registries.Extends (registries.run calls).2 := by
  induction calls generalizing registries with
  | nil => exact .refl registries
  | cons call calls ih => exact (extends_answer registries call).trans (ih _)

theorem holds_run {earlier : List RegistryCall} (holds : registries.Holds earlier)
    (calls : List RegistryCall) : (registries.run calls).2.Holds (earlier ++ calls) := by
  induction calls generalizing registries earlier with
  | nil => rwa [List.append_nil]
  | cons call calls ih =>
    have hrest := ih (holds_answer holds call)
    rwa [List.append_assoc] at hrest

theorem length_run (registries : Registries) (calls : List RegistryCall) :
    (registries.run calls).1.length = calls.length := by
  induction calls generalizing registries with
  | nil => rfl
  | cons call calls ih => exact congrArg Nat.succ (ih _)

/-- Each call is answered by the registries that the calls before it left. -/
theorem getElem?_run {place : Nat} (h : calls[place]? = some call) :
    (registries.run calls).1[place]? =
      some ((registries.run (calls.take place)).2.answer call).1 := by
  induction calls generalizing registries place with
  | nil => cases h
  | cons first calls ih =>
    cases place with
    | zero =>
      cases h
      rfl
    | succ place => exact ih h

/-- A handle that was given stays where it is to the end of the run. -/
theorem mem_run {place : Nat} {locale : Locale} {handle : Handle}
    (hcall : calls[place]? = some (.get name locale))
    (hanswer : (registries.run calls).1[place]? = some (.handle handle)) :
    handle ∈ (registries.run calls).2.registry name ∧ handle.locale = locale := by
  induction calls generalizing registries place with
  | nil => cases hcall
  | cons first calls ih =>
    cases place with
    | zero =>
      cases hcall
      cases hanswer
      exact ⟨(extends_run _ calls).mem (mem_get registries name locale),
        locale_get registries name locale⟩
    | succ place => exact ih hcall hanswer

/-- What a registry answers depends on the locales that it holds, and on nothing else. -/
theorem answer_of_same_locales {other : Registries}
    (same : registries.locales call.name = other.locales call.name) :
    (registries.answer call).1.unnumbered = (other.answer call).1.unnumbered ∧
      (registries.answer call).2.locales call.name = (other.answer call).2.locales call.name := by
  cases call with
  | get name locale =>
    simp only [RegistryCall.name] at same ⊢
    simp only [answer, RegistryAnswer.unnumbered, locale_get, locales_get, same, and_self]
  | contains name locale =>
    simp only [RegistryCall.name] at same ⊢
    simp only [answer, contains_eq, same, and_self]
  | size name | isEmpty name =>
    simp only [RegistryCall.name] at same ⊢
    simp only [answer, isEmpty, size_eq, same, and_self]

/-- Without the calls of the other registries the calls of one are answered as they were. -/
theorem answers_of_name {other : Registries} (same : registries.locales name = other.locales name)
    (calls : List RegistryCall) :
    ((calls.zip (registries.run calls).1).filter (·.1.name == name)).map (·.2.unnumbered) =
      (other.run (calls.filter (·.name == name))).1.map (·.unnumbered) := by
  induction calls generalizing registries other with
  | nil => rfl
  | cons call calls ih =>
    by_cases here : call.name = name
    · subst here
      obtain ⟨hanswer, hlocales⟩ := answer_of_same_locales same
      simp only [run, List.zip_cons_cons, List.filter_cons, beq_self_eq_true, if_true,
        List.map_cons, hanswer, ih hlocales]
    · have hlocales : (registries.answer call).2.locales name = other.locales name :=
        (congrArg _ (answer_other registries here)).trans same
      simp only [run, List.zip_cons_cons, List.filter_cons, beq_eq_false_iff_ne.mpr here,
        Bool.false_eq_true, if_false, ih hlocales]

/-! ## The law of a run -/

/-- The call at this place of a run, which starts with nothing registered, has this answer. -/
def Answered (calls : List RegistryCall) (place : Nat) (call : RegistryCall)
    (answer : RegistryAnswer) : Prop :=
  calls[place]? = some call ∧ (empty.run calls).1[place]? = some answer

section Answered

variable {place : Nat} {locale : Locale} {answer : RegistryAnswer}

theorem Answered.eq (h : Answered calls place call answer) :
    answer = ((empty.run (calls.take place)).2.answer call).1 := by
  have hanswer : (empty.run calls).1[place]? =
      some ((empty.run (calls.take place)).2.answer call).1 := getElem?_run h.1
  rw [h.2, Option.some.injEq] at hanswer
  exact hanswer

/-- A handle stands for one registry and one locale, wherever in the run it was given. -/
theorem Answered.number_eq_iff {other place' : Nat} {locale' : Locale} {handle handle' : Handle}
    (h : Answered calls place (.get name locale) (.handle handle))
    (h' : Answered calls place' (.get other locale') (.handle handle')) :
    handle.number = handle'.number ↔ name = other ∧ locale = locale' := by
  obtain ⟨hmem, rfl⟩ := mem_run h.1 h.2
  obtain ⟨hmem', rfl⟩ := mem_run h'.1 h'.2
  exact (sound_run sound_empty calls).number_eq_iff hmem hmem'

theorem Answered.contains_iff (h : Answered calls place (.contains name locale) answer) :
    ∃ value, answer = .truth value ∧ (value = true ↔ .get name locale ∈ calls.take place) := by
  have holds := holds_run holds_empty (calls.take place)
  refine ⟨_, h.eq, ?_⟩
  rw [contains_eq, decide_eq_true_iff, holds name locale, List.nil_append]

theorem locales_run_toFinset (calls : List RegistryCall) (name : Nat) :
    ((empty.run calls).2.locales name).toFinset = (wanted name calls).toFinset := by
  ext locale
  rw [List.mem_toFinset, List.mem_toFinset, mem_wanted, holds_run holds_empty calls name locale,
    List.nil_append]

theorem Answered.size_eq (h : Answered calls place (.size name) answer) :
    answer = .count (wanted name (calls.take place)).toFinset.card := by
  have sound := sound_run sound_empty (calls.take place)
  rw [h.eq, Registries.answer, Registries.size_eq, ← locales_run_toFinset,
    List.toFinset_card_of_nodup (sound.nodup name)]

/-- A later size counts all that an earlier one counted. -/
theorem Answered.size_le {place' number number' : Nat} (later : place ≤ place')
    (h : Answered calls place (.size name) (.count number))
    (h' : Answered calls place' (.size name) (.count number')) : number ≤ number' := by
  have hnumber := RegistryAnswer.count.inj h.size_eq
  have hnumber' := RegistryAnswer.count.inj h'.size_eq
  rw [hnumber, hnumber']
  apply Finset.card_le_card
  intro locale hlocale
  rw [List.mem_toFinset, mem_wanted] at hlocale ⊢
  exact (List.take_subset_take_left calls later) hlocale

theorem Answered.isEmpty_iff (h : Answered calls place (.isEmpty name) answer) :
    ∃ value, answer = .truth value ∧
      (value = true ↔ ∀ locale, .get name locale ∉ calls.take place) := by
  have holds := holds_run holds_empty (calls.take place)
  refine ⟨_, h.eq, ?_⟩
  rw [isEmpty, Registries.size_eq, beq_iff_eq, List.length_eq_zero_iff,
    List.eq_nil_iff_forall_not_mem]
  simp only [holds name, List.nil_append]

end Answered

/-- Every call of a run is answered. A handle has the locale that was asked for, and two handles
are the same exactly when they come from one registry and one locale, wherever in the run they
were given. A registry contains the locales that it was asked for so far, its size is their number
and never goes down, and it is empty as long as it was asked for none. Only getting a handle
changes anything, and only in its own registry: without the calls of all other registries the
calls of one are answered as they were. -/
theorem handles_follow_calls (calls : List RegistryCall) :
    (empty.run calls).1.length = calls.length ∧
      (∀ place name locale answer, Answered calls place (.get name locale) answer →
        ∃ handle, answer = .handle handle ∧ handle.locale = locale) ∧
      (∀ place name locale handle place' name' locale' handle',
        Answered calls place (.get name locale) (.handle handle) →
        Answered calls place' (.get name' locale') (.handle handle') →
        (handle.number = handle'.number ↔ name = name' ∧ locale = locale')) ∧
      (∀ place name locale answer, Answered calls place (.contains name locale) answer →
        ∃ value, answer = .truth value ∧ (value = true ↔ .get name locale ∈ calls.take place)) ∧
      (∀ place name answer, Answered calls place (.size name) answer →
        answer = .count (wanted name (calls.take place)).toFinset.card) ∧
      (∀ place name number place' number', place ≤ place' →
        Answered calls place (.size name) (.count number) →
        Answered calls place' (.size name) (.count number') → number ≤ number') ∧
      (∀ place name answer, Answered calls place (.isEmpty name) answer →
        ∃ value, answer = .truth value ∧
          (value = true ↔ ∀ locale, .get name locale ∉ calls.take place)) ∧
      (∀ (registries : Registries) (call : RegistryCall), call.isGet = false →
        (registries.answer call).2 = registries) ∧
      (∀ (registries : Registries) (call : RegistryCall) (other : Nat), call.name ≠ other →
        (registries.answer call).2.registry other = registries.registry other) ∧
      ∀ name, ((calls.zip (empty.run calls).1).filter (·.1.name == name)).map (·.2.unnumbered) =
        (empty.run (calls.filter (·.name == name))).1.map (·.unnumbered) := by
  refine ⟨length_run empty calls, ?_, ?_, ?_, ?_, ?_, ?_, ?_, ?_, ?_⟩
  · intro place name locale answer h
    exact ⟨_, h.eq, locale_get _ name locale⟩
  · intro place name locale handle place' name' locale' handle' h h'
    exact h.number_eq_iff h'
  · intro place name locale answer h
    exact h.contains_iff
  · intro place name answer h
    exact h.size_eq
  · intro place name number place' number' later h h'
    exact h.size_le later h'
  · intro place name answer h
    exact h.isEmpty_iff
  · intro registries call asking
    exact answer_of_not_get asking
  · intro registries call other apart
    exact answer_other registries apart
  · intro name
    exact answers_of_name rfl calls

/-- The second registry makes a handle of its own, and the first gives its old one again. -/
example : (empty.run [.get 0 .standard, .get 1 .standard, .get 0 .standard, .size 0]).1 =
    [.handle ⟨0, .standard⟩, .handle ⟨1, .standard⟩, .handle ⟨0, .standard⟩, .count 1] := by decide

end Registries

end FakeData
