import FakeData.Proofs.Draw
import FakeData.Synthesis
import Mathlib.Data.List.InsertIdx

/-!
# Plans and their texts

A plan has exactly one slot for each character, and every slot lies within the text written before
it. Filling a plan draws once for each slot and inserts what is drawn, and what is inserted does
not matter to where it ends up. So a text is an arrangement of one pick for each slot.
-/
namespace FakeData.Synthesis

open Draw (Answer Ends)

variable {classes : CharClasses} {length start : Nat} {slots : List Slot}

/-! ## Passes -/

/-- The condition under which a pass puts a special character to the front. -/
def SpecialFires (classes : CharClasses) (length start : Nat) : Prop :=
  classes.special ∧ 3 ≤ length ∧ start = length - 3

def UppercaseFires (classes : CharClasses) (length start : Nat) : Prop :=
  classes.uppercase ∧ start = length / 2

def DigitFires (classes : CharClasses) (length start : Nat) : Prop :=
  classes.digits ∧ start = length - 1

/-- What a pass can do. It fills two slots only where the special and the uppercase character meet,
which is at five and six characters; in a text of one or two the uppercase letter displaces the
digit. -/
inductive PassCase (classes : CharClasses) (length start : Nat) : List Slot → Prop where
  | whole (s : ¬SpecialFires classes length start) (u : ¬UppercaseFires classes length start)
      (d : ¬DigitFires classes length start) : PassCase classes length start [⟨.whole, start⟩]
  | special (s : SpecialFires classes length start) (u : ¬UppercaseFires classes length start) :
      PassCase classes length start [⟨.special, 0⟩]
  | uppercase (s : ¬SpecialFires classes length start) (u : UppercaseFires classes length start)
      (d : DigitFires classes length start → length ≤ 2) :
      PassCase classes length start [⟨.uppercase, start⟩]
  | digits (u : ¬UppercaseFires classes length start) (d : DigitFires classes length start) :
      PassCase classes length start [⟨.digits, start⟩]
  | meeting (s : SpecialFires classes length start) (u : UppercaseFires classes length start)
      (five_or_six : length = 5 ∨ length = 6) :
      PassCase classes length start [⟨.special, 0⟩, ⟨.uppercase, start⟩]

theorem pass_cases (classes : CharClasses) (inside : start < length) :
    PassCase classes length start (pass classes length start) := by
  by_cases s : SpecialFires classes length start
  · have hs : specialSlots classes length start = [⟨.special, 0⟩] := if_pos s
    have hd : ∀ written, digitSlots classes length start written = [] := by
      intro written
      refine if_neg ?_
      rintro ⟨-, hd, -⟩
      obtain ⟨-, h3, hs⟩ := s
      omega
    by_cases u : UppercaseFires classes length start
    · have hu : uppercaseSlots classes length start (start + 1) = [⟨.uppercase, start⟩] := by
        obtain ⟨-, h3, hs⟩ := s
        rw [uppercaseSlots, if_pos ⟨u.1, u.2, by omega⟩, ← u.2, Nat.min_eq_left (by omega)]
      simp only [pass, hs, List.length_singleton, hu, hd, List.append_nil, List.singleton_append]
      refine .meeting s u ?_
      obtain ⟨-, h3, hs⟩ := s
      obtain ⟨-, hu⟩ := u
      omega
    · have hu : ∀ written, uppercaseSlots classes length start written = [] := by
        intro written
        exact if_neg fun h => u ⟨h.1, h.2.1⟩
      simp only [pass, hs, hu, hd, List.append_nil]
      exact .special s u
  · have hs : specialSlots classes length start = [] := if_neg s
    by_cases u : UppercaseFires classes length start
    · have hu : uppercaseSlots classes length start start = [⟨.uppercase, start⟩] := by
        rw [uppercaseSlots, if_pos ⟨u.1, u.2, inside⟩, ← u.2, Nat.min_self]
      have hd : digitSlots classes length start (start + 1) = [] := by
        refine if_neg ?_
        rintro ⟨-, hd, room⟩
        omega
      simp only [pass, hs, List.length_nil, Nat.add_zero, hu, List.length_singleton, hd,
        List.nil_append, List.append_nil]
      refine .uppercase s u ?_
      rintro ⟨-, hd⟩
      obtain ⟨-, hu⟩ := u
      omega
    · have hu : ∀ written, uppercaseSlots classes length start written = [] := by
        intro written
        exact if_neg fun h => u ⟨h.1, h.2.1⟩
      by_cases d : DigitFires classes length start
      · have hd : digitSlots classes length start start = [⟨.digits, start⟩] := by
          rw [digitSlots, if_pos ⟨d.1, d.2, inside⟩, ← d.2, Nat.min_self]
        simp only [pass, hs, hu, List.length_nil, Nat.add_zero, hd, List.nil_append]
        exact .digits u d
      · have hd : ∀ written, digitSlots classes length start written = [] := by
          intro written
          exact if_neg fun h => d ⟨h.1, h.2.1⟩
        simp only [pass, hs, hu, hd, List.append_nil]
        exact .whole s u d

/-- A pass writes something, and never more than is missing. -/
theorem length_pass (classes : CharClasses) (inside : start < length) :
    0 < (pass classes length start).length ∧
      start + (pass classes length start).length ≤ length := by
  have h := pass_cases classes inside
  generalize pass classes length start = slots at h ⊢
  cases h with
  | meeting s u five_or_six =>
    obtain ⟨-, h3, hs⟩ := s
    simp only [List.length_cons, List.length_nil]
    omega
  | _ =>
    simp only [List.length_cons, List.length_nil]
    omega

/-! ## Plans -/

/-- What holds of the end of a plan, and of each part that starts with a pass if it holds of the
part after that pass, holds of the plan. -/
theorem planFrom_induction {motive : Nat → List Slot → Prop} (done : motive length [])
    (next : ∀ start rest, start < length →
      motive (start + (pass classes length start).length) rest →
      motive start (pass classes length start ++ rest))
    (passes : Nat) (within : start ≤ length) (enough : length ≤ start + passes) :
    motive start (planFrom classes length passes start) := by
  induction passes generalizing start with
  | zero =>
    have hstart : start = length := by omega
    rw [hstart]
    exact done
  | succ passes ih =>
    by_cases inside : start < length
    · obtain ⟨some_written, fits⟩ := length_pass classes inside
      simp only [planFrom, if_pos inside]
      exact next start _ inside (ih fits (by omega))
    · have hstart : start = length := by omega
      simp only [planFrom, if_neg inside]
      rw [hstart]
      exact done

theorem plan_induction {motive : Nat → List Slot → Prop} (done : motive length [])
    (next : ∀ start rest, start < length →
      motive (start + (pass classes length start).length) rest →
      motive start (pass classes length start ++ rest)) :
    motive 0 (plan classes length) :=
  planFrom_induction done next length (Nat.zero_le _) (by omega)

/-- The passes of a plan stop exactly at the length that is asked for. -/
theorem length_plan : (plan classes length).length = length := by
  have h : 0 + (plan classes length).length = length := by
    refine plan_induction (motive := fun start slots => start + slots.length = length) rfl ?_
    intro start rest _ ih
    rw [List.length_append]
    omega
  omega

/-- Every slot lies within the text that is written when it is filled. -/
def Fits : Nat → List Slot → Prop
  | _, [] => True
  | written, slot :: slots => slot.place ≤ written ∧ Fits (written + 1) slots

theorem fits_append {written : Nat} {first rest : List Slot} :
    Fits written (first ++ rest) ↔ Fits written first ∧ Fits (written + first.length) rest := by
  induction first generalizing written with
  | nil => simp [Fits]
  | cons slot first ih =>
    have he : written + (first.length + 1) = written + 1 + first.length := by omega
    simp only [List.cons_append, Fits, ih, List.length_cons, he, and_assoc]

theorem fits_pass (classes : CharClasses) (inside : start < length) :
    Fits start (pass classes length start) := by
  have h := pass_cases classes inside
  generalize pass classes length start = slots at h ⊢
  cases h with
  | meeting => exact ⟨by simp, by simp, trivial⟩
  | _ => exact ⟨by simp, trivial⟩

theorem fits_plan : Fits 0 (plan classes length) := by
  refine plan_induction trivial ?_
  intro start rest inside ih
  exact fits_append.mpr ⟨fits_pass classes inside, ih⟩

/-! ## Insertions in turn -/

def arrange {α : Type} : List Slot → List α → List α → List α
  | slot :: slots, item :: items, text => arrange slots items (text.insertIdx slot.place item)
  | _, _, text => text

@[simp] theorem arrange_nil {α : Type} (items text : List α) : arrange [] items text = text := by
  cases items <;> rfl

@[simp] theorem arrange_cons {α : Type} (slot : Slot) (slots : List Slot) (item : α)
    (items text : List α) : arrange (slot :: slots) (item :: items) text =
      arrange slots items (text.insertIdx slot.place item) := rfl

/-- Where an item goes does not depend on the item. -/
theorem arrange_map {α β : Type} (f : α → β) (slots : List Slot) (items text : List α) :
    (arrange slots items text).map f = arrange slots (items.map f) (text.map f) := by
  induction slots generalizing items text with
  | nil => simp
  | cons slot slots ih =>
    cases items with
    | nil => rfl
    | cons item items => simp only [arrange_cons, List.map_cons, ih, List.map_insertIdx]

theorem arrange_append {α : Type} {first rest : List Slot} {items : List α}
    (h : first.length = items.length) (others text : List α) :
    arrange (first ++ rest) (items ++ others) text =
      arrange rest others (arrange first items text) := by
  induction first generalizing items text with
  | nil =>
    cases items with
    | nil => simp
    | cons item items => cases h
  | cons slot first ih =>
    cases items with
    | nil => cases h
    | cons item items =>
      have hlength : first.length = items.length := Nat.succ.inj h
      simp only [List.cons_append, arrange_cons, ih hlength]

/-- Within the text so far nothing gets lost. -/
theorem arrange_perm {α : Type} {items text : List α} (fits : Fits text.length slots)
    (h : slots.length = items.length) : (arrange slots items text).Perm (text ++ items) := by
  induction slots generalizing items text with
  | nil =>
    cases items with
    | nil => simp
    | cons item items => cases h
  | cons slot slots ih =>
    cases items with
    | nil => cases h
    | cons item items =>
      obtain ⟨inside, fits⟩ := fits
      have hinsert := List.perm_insertIdx item text inside
      have hlength := List.length_insertIdx_of_le_length inside item
      have hfits : Fits (text.insertIdx slot.place item).length slots := by rwa [hlength]
      have hrest := ih hfits (Nat.succ.inj h)
      have hmove : (text.insertIdx slot.place item ++ items).Perm (text ++ item :: items) :=
        (hinsert.append_right items).trans List.perm_middle.symm
      exact hrest.trans hmove

/-! ## Filling as an arrangement -/

structure Pick (classes : CharClasses) where
  pool : Pool
  index : Fin (pool.characters classes).length

namespace Pick

def character (pick : Pick classes) : Char := (pick.pool.characters classes).get pick.index

def answer (pick : Pick classes) : Answer := ⟨_, pick.index⟩

end Pick

/-- Within the text so far, filling picks a character for each slot and arranges them. -/
theorem ends_fill_iff {text result : Array Char} {answers : List Answer}
    (fits : Fits text.size slots) :
    Ends (fill classes slots text) answers result ↔
      ∃ picks : List (Pick classes), picks.map Pick.pool = slots.map Slot.pool ∧
        answers = picks.map Pick.answer ∧
        result.toList = arrange slots (picks.map Pick.character) text.toList := by
  induction slots generalizing text answers with
  | nil =>
    constructor
    · intro h
      obtain ⟨rfl, rfl⟩ := Draw.ends_done.mp h
      exact ⟨[], rfl, rfl, rfl⟩
    · rintro ⟨picks, hpools, rfl, hresult⟩
      obtain rfl := List.map_eq_nil_iff.mp hpools
      exact Draw.ends_done.mpr ⟨rfl, Array.toList_inj.mp hresult⟩
  | cons slot slots ih =>
    obtain ⟨inside, fits⟩ := fits
    have hinsert (c : Char) : (insert text slot.place c).toList =
        text.toList.insertIdx slot.place c := by
      rw [insert, dif_pos inside, Array.toList_insertIdx]
    have hfits (c : Char) : Fits (insert text slot.place c).size slots := by
      have hsize : (insert text slot.place c).size = text.size + 1 := by
        rw [insert, dif_pos inside, Array.size_insertIdx]
      rwa [hsize]
    constructor
    · intro h
      obtain ⟨_, c, rest, rfl, hc, hrest⟩ := Draw.ends_andThen.mp h
      obtain ⟨i, rfl, hi⟩ := Draw.ends_pick.mp hc
      obtain ⟨picks, hpools, rfl, hresult⟩ := (ih (hfits c)).mp hrest
      refine ⟨⟨slot.pool, i⟩ :: picks, by simp [hpools], rfl, ?_⟩
      rw [hresult, hinsert, hi]
      rfl
    · rintro ⟨picks, hpools, rfl, hresult⟩
      obtain ⟨pick, picks, rfl⟩ := List.exists_cons_of_ne_nil
        (l := picks) (by rintro rfl; cases hpools)
      obtain ⟨pool, index⟩ := pick
      obtain ⟨rfl, hothers⟩ := List.cons.inj hpools
      refine Draw.ends_andThen.mpr ⟨_, _, _, rfl, Draw.ends_pick.mpr ⟨index, rfl, rfl⟩, ?_⟩
      refine (ih (hfits _)).mpr ⟨picks, hothers, rfl, ?_⟩
      rw [hresult, hinsert]
      rfl

/-! ## Texts -/

/-- A text is made of one pick for each slot of its plan. -/
theorem ends_synthesize_iff_picks {answers : List Answer} {text : String} :
    Ends (synthesize classes length) answers text ↔
      ∃ picks : List (Pick classes), picks.map Pick.pool = (plan classes length).map Slot.pool ∧
        answers = picks.map Pick.answer ∧
        text = .ofList (arrange (plan classes length) (picks.map Pick.character) []) := by
  have fits : Fits (#[] : Array Char).size (plan classes length) := fits_plan
  constructor
  · intro h
    obtain ⟨filling, filled, rest, rfl, hfill, hrest⟩ := Draw.ends_andThen.mp h
    obtain ⟨rfl, rfl⟩ := Draw.ends_done.mp hrest
    obtain ⟨picks, hpools, rfl, hfilled⟩ := (ends_fill_iff fits).mp hfill
    exact ⟨picks, hpools, List.append_nil _, by rw [hfilled]⟩
  · rintro ⟨picks, hpools, rfl, rfl⟩
    have hfill : Ends (fill classes (plan classes length) #[]) (picks.map Pick.answer)
        (arrange (plan classes length) (picks.map Pick.character) []).toArray :=
      (ends_fill_iff fits).mpr ⟨picks, hpools, rfl, rfl⟩
    exact Draw.ends_andThen.mpr ⟨_, _, [], by simp, hfill, .done _⟩

/-- A text asks once for each slot, with as many characters to choose from as its pool has. -/
theorem bounds_synthesize {text : String} {answers : List Answer}
    (h : Ends (synthesize classes length) answers text) :
    answers.map Answer.bound =
      (plan classes length).map fun slot => (slot.pool.characters classes).length := by
  obtain ⟨picks, hpools, rfl, -⟩ := ends_synthesize_iff_picks.mp h
  have hbounds := congrArg (List.map fun pool => (Pool.characters classes pool).length) hpools
  rw [List.map_map, List.map_map] at hbounds
  rw [List.map_map]
  exact hbounds

/-- A text takes as many draws as it has characters. -/
theorem length_answers_synthesize {text : String} {answers : List Answer}
    (h : Ends (synthesize classes length) answers text) : answers.length = length := by
  have hbounds := congrArg List.length (bounds_synthesize h)
  rwa [List.length_map, List.length_map, length_plan] at hbounds

end FakeData.Synthesis
