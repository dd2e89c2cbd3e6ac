import FakeData.Registry
import Mathlib.Data.List.Nodup

/-!
# Handles of registries

Getting a handle gives the one that is there, or makes one under a new number. So handles are only
ever added to a registry, and where numbers are given out once, and locales once in each registry,
this stays so.
-/
namespace FakeData

namespace Registries

variable {registries before after : Registries} {name other : Nat} {locale : Locale}
  {handle : Handle}

/-! ## What getting a handle does -/

/-- The locales of a registry, in the order in which it was first asked for them. -/
def locales (registries : Registries) (name : Nat) : List Locale :=
  (registries.registry name).map Handle.locale

def issue (registries : Registries) (name : Nat) (locale : Locale) : Registries :=
  ⟨registries.issued + 1, fun other =>
    if other = name then registries.registry name ++ [⟨registries.issued, locale⟩]
    else registries.registry other⟩

theorem issue_same (registries : Registries) (name : Nat) (locale : Locale) :
    (registries.issue name locale).registry name =
      registries.registry name ++ [⟨registries.issued, locale⟩] := if_pos rfl

theorem issue_other (registries : Registries) (locale : Locale) (apart : other ≠ name) :
    (registries.issue name locale).registry other = registries.registry other := if_neg apart

/-- A handle that is there is given again, and one that is not is made. -/
theorem get_cases (registries : Registries) (name : Nat) (locale : Locale) :
    (∃ handle ∈ registries.registry name, handle.locale = locale ∧
        registries.get name locale = (handle, registries)) ∨
      (locale ∉ registries.locales name ∧
        registries.get name locale =
          (⟨registries.issued, locale⟩, registries.issue name locale)) := by
  cases hfind : (registries.registry name).find? locale with
  | some handle =>
    have hmem := List.mem_of_find?_eq_some hfind
    have hlocale := List.find?_some hfind
    exact .inl ⟨handle, hmem, beq_iff_eq.mp hlocale, by rw [get, hfind]⟩
  | none =>
    have hnone := List.find?_eq_none.mp hfind
    refine .inr ⟨?_, by rw [get, hfind]; rfl⟩
    intro h
    obtain ⟨handle, hmem, hlocale⟩ := List.mem_map.mp h
    exact hnone handle hmem (beq_iff_eq.mpr hlocale)

theorem locale_get (registries : Registries) (name : Nat) (locale : Locale) :
    (registries.get name locale).1.locale = locale := by
  rcases get_cases registries name locale with ⟨handle, -, hlocale, hget⟩ | ⟨-, hget⟩
  · rw [hget]
    exact hlocale
  · rw [hget]

theorem mem_get (registries : Registries) (name : Nat) (locale : Locale) :
    (registries.get name locale).1 ∈ (registries.get name locale).2.registry name := by
  rcases get_cases registries name locale with ⟨handle, hmem, -, hget⟩ | ⟨-, hget⟩
  · rw [hget]
    exact hmem
  · rw [hget, issue_same]
    exact List.mem_append_right _ List.mem_cons_self

/-- Other registries are left alone. -/
theorem get_other (registries : Registries) (locale : Locale) (apart : other ≠ name) :
    (registries.get name locale).2.registry other = registries.registry other := by
  rcases get_cases registries name locale with ⟨handle, -, -, hget⟩ | ⟨-, hget⟩
  · rw [hget]
  · rw [hget, issue_other registries locale apart]

theorem locales_get (registries : Registries) (name : Nat) (locale : Locale) :
    (registries.get name locale).2.locales name =
      if locale ∈ registries.locales name then registries.locales name
      else registries.locales name ++ [locale] := by
  rcases get_cases registries name locale with ⟨handle, hmem, hlocale, hget⟩ | ⟨absent, hget⟩
  · have held : locale ∈ registries.locales name := List.mem_map.mpr ⟨handle, hmem, hlocale⟩
    rw [hget, if_pos held]
  · rw [hget, if_neg absent, locales, issue_same, List.map_append, List.map_singleton, locales]

/-- The locales of a registry are those it had and the one that it is asked for. -/
theorem mem_locales_get {asked : Locale} :
    locale ∈ (registries.get name asked).2.locales name ↔
      locale ∈ registries.locales name ∨ locale = asked := by
  rw [locales_get]
  split
  · rename_i held
    rw [or_iff_left_of_imp]
    rintro rfl
    exact held
  · rw [List.mem_append, List.mem_singleton]

theorem contains_eq (registries : Registries) (name : Nat) (locale : Locale) :
    registries.contains name locale = decide (locale ∈ registries.locales name) := by
  rw [Bool.eq_iff_iff, decide_eq_true_iff, contains, Registry.contains, Registry.find?,
    List.find?_isSome, locales, List.mem_map]
  simp

theorem size_eq (registries : Registries) (name : Nat) :
    registries.size name = (registries.locales name).length := (List.length_map _).symm

/-! ## Handles that were made -/

/-- Everything in the first registries is in the second, at its old place. -/
def Extends (before after : Registries) : Prop :=
  ∀ name, before.registry name <+: after.registry name

theorem Extends.refl (registries : Registries) : registries.Extends registries :=
  fun _ => List.prefix_rfl

theorem Extends.trans {middle : Registries} (h : before.Extends middle)
    (h' : middle.Extends after) : before.Extends after :=
  fun name => (h name).trans (h' name)

theorem Extends.mem (h : before.Extends after) (hmem : handle ∈ before.registry name) :
    handle ∈ after.registry name := (h name).subset hmem

theorem extends_get (registries : Registries) (name : Nat) (locale : Locale) :
    registries.Extends (registries.get name locale).2 := by
  rcases get_cases registries name locale with ⟨handle, -, -, hget⟩ | ⟨-, hget⟩
  · rw [hget]
    exact .refl registries
  · rw [hget]
    intro other
    by_cases same : other = name
    · rw [same, issue_same]
      exact List.prefix_append _ _
    · simp only [issue_other registries locale same, List.prefix_rfl]

/-- Numbers are given out once over all registries, and locales once in each. -/
structure Sound (registries : Registries) : Prop where
  number_lt : ∀ name, ∀ handle ∈ registries.registry name, handle.number < registries.issued
  unique : ∀ name other, ∀ handle ∈ registries.registry name, ∀ handle' ∈ registries.registry other,
    handle.number = handle'.number → name = other ∧ handle = handle'
  nodup : ∀ name, (registries.locales name).Nodup

theorem sound_empty : empty.Sound := by
  refine ⟨?_, ?_, fun name => List.nodup_nil⟩
  · intro name handle h
    cases h
  · intro name other handle h
    cases h

theorem mem_issue (h : handle ∈ (registries.issue name locale).registry other) :
    handle ∈ registries.registry other ∨
      (other = name ∧ handle = ⟨registries.issued, locale⟩) := by
  by_cases same : other = name
  · subst same
    rw [issue_same, List.mem_append, List.mem_singleton] at h
    exact h.imp_right fun h => ⟨rfl, h⟩
  · rw [issue_other registries locale same] at h
    exact .inl h

/-- The new number is above all others, and the new locale was in no handle of the registry. -/
theorem sound_issue (sound : registries.Sound)
    (absent : locale ∉ registries.locales name) :
    (registries.issue name locale).Sound where
  number_lt := by
    intro other handle h
    rcases mem_issue h with h | ⟨-, rfl⟩
    · exact Nat.lt_succ_of_lt (sound.number_lt other handle h)
    · exact Nat.lt_succ_self registries.issued
  unique := by
    intro first second handle h handle' h' same
    rcases mem_issue h with hold | ⟨rfl, rfl⟩ <;> rcases mem_issue h' with hold' | ⟨rfl, rfl⟩
    · exact sound.unique first second handle hold handle' hold' same
    · exact absurd same (Nat.ne_of_lt (sound.number_lt first handle hold))
    · exact absurd same.symm (Nat.ne_of_lt (sound.number_lt second handle' hold'))
    · exact ⟨rfl, rfl⟩
  nodup := by
    intro other
    by_cases same : other = name
    · rw [same, locales, issue_same, List.map_append, List.nodup_append]
      refine ⟨sound.nodup name, List.nodup_singleton _, ?_⟩
      intro held hheld new hnew
      rw [List.map_singleton, List.mem_singleton] at hnew
      rw [hnew]
      exact ne_of_mem_of_not_mem hheld absent
    · rw [locales, issue_other registries locale same]
      exact sound.nodup other

theorem sound_get (sound : registries.Sound) (name : Nat) (locale : Locale) :
    (registries.get name locale).2.Sound := by
  rcases get_cases registries name locale with ⟨handle, -, -, hget⟩ | ⟨absent, hget⟩
  · rw [hget]
    exact sound
  · rw [hget]
    exact sound_issue sound absent

namespace Sound

variable {handle' : Handle}

theorem eq_of_locale_eq (sound : registries.Sound) (h : handle ∈ registries.registry name)
    (h' : handle' ∈ registries.registry name) (same : handle.locale = handle'.locale) :
    handle = handle' :=
  List.inj_on_of_nodup_map (sound.nodup name) h h' same

/-- A handle is known by its registry and its locale. -/
theorem number_eq_iff (sound : registries.Sound) (h : handle ∈ registries.registry name)
    (h' : handle' ∈ registries.registry other) :
    handle.number = handle'.number ↔ name = other ∧ handle.locale = handle'.locale := by
  constructor
  · intro same
    obtain ⟨hname, rfl⟩ := sound.unique name other handle h handle' h' same
    exact ⟨hname, rfl⟩
  · rintro ⟨rfl, same⟩
    rw [sound.eq_of_locale_eq h h' same]

/-- A handle that is there is the one that its locale gets, and no other is made. -/
theorem get_eq (sound : registries.Sound) (h : handle ∈ registries.registry name) :
    registries.get name handle.locale = (handle, registries) := by
  rcases get_cases registries name handle.locale with ⟨held, hmem, hlocale, hget⟩ | ⟨absent, -⟩
  · rw [hget, sound.eq_of_locale_eq hmem h hlocale]
  · exact absurd (List.mem_map_of_mem h) absent

end Sound

end Registries

end FakeData
