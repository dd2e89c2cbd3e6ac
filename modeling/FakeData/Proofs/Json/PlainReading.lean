import FakeData.Proofs.Json.Parts
import FakeData.Proofs.Json.Spelling
import FakeData.Proofs.Resolution

/-!
# The strict reader and the plain one

A plain reader keeps the last value of a repeated key without a word. The strict reader accepts
the same texts with the same values, apart from those in which an object writes a key twice. These
it refuses, wherever the object is.
-/
namespace FakeData.Json

/-! ## Last values -/

theorem lastWinsItems_eq_self {items : List Json} (h : ∀ item ∈ items, item.lastWins = item) :
    lastWinsItems items = items := by
  induction items with
  | nil => rfl
  | cons item items ih =>
    obtain ⟨hitem, hitems⟩ := List.forall_mem_cons.mp h
    rw [lastWinsItems, hitem, ih hitems]

/-- New keys are added behind the members that are kept. -/
theorem lastWinsMembers_eq_append {kept members : List (String × Json)}
    (keys : ((kept ++ members).map Prod.fst).Nodup)
    (h : ∀ member ∈ members, member.2.lastWins = member.2) :
    lastWinsMembers kept members = kept ++ members := by
  induction members generalizing kept with
  | nil => rw [lastWinsMembers, List.append_nil]
  | cons member members ih =>
    obtain ⟨hmember, hmembers⟩ := List.forall_mem_cons.mp h
    rw [List.append_cons] at keys
    have hnew : member.1 ∉ kept.map Prod.fst := by
      rw [List.map_append, List.map_append] at keys
      have hkept := (List.nodup_append.mp (List.nodup_append.mp keys).1).2.2
      intro hmem
      exact hkept _ hmem member.1 (by simp) rfl
    rw [lastWinsMembers, hmember, Bindings.set_of_notMem hnew, ih keys hmembers, ← List.append_cons]

/-- Without repeated keys there is nothing to drop. -/
theorem DistinctKeys.lastWins_eq_self {v : Json} (h : DistinctKeys v) : v.lastWins = v := by
  induction h with
  | null => rfl
  | bool value => rfl
  | number value => rfl
  | string value => rfl
  | array _ ih => rw [lastWins, lastWinsItems_eq_self ih]
  | @object members keys _ ih =>
    rw [lastWins, lastWinsMembers_eq_append (by rwa [List.nil_append]) ih, List.nil_append]

/-! ## Refusals -/

/-- One reading gives what the other gives, or refuses a repeated key. -/
def RefusesOnlyRepeats {α : Type} (strict lenient : Except Fault α) : Prop :=
  strict = lenient ∨ ∃ key left, strict = .error ⟨.duplicateKey key, left⟩

variable {strict lenient : Reader FaultCause Json}

theorem RefusesOnlyRepeats.map {α β : Type} {strict lenient : Except Fault α}
    (h : RefusesOnlyRepeats strict lenient) (f : α → β) :
    RefusesOnlyRepeats (strict.map f) (lenient.map f) := by
  rcases h with rfl | ⟨key, left, rfl⟩
  · exact .inl rfl
  · exact .inr ⟨key, left, rfl⟩

theorem readItems_refuses (h : ∀ s, RefusesOnlyRepeats (strict s) (lenient s)) (fuel : Nat)
    (first : Bool) (s : List Char) :
    RefusesOnlyRepeats (readItems strict fuel first s) (readItems lenient fuel first s) := by
  induction fuel generalizing first s with
  | zero => exact .inl rfl
  | succ fuel ih =>
    rw [readItems, readItems]
    cases Enclosure.list.next first s with
    | error fault => exact .inl rfl
    | ok part =>
      obtain ⟨_ | _, s₁⟩ := part
      · exact .inl rfl
      · rcases h s₁ with hsame | ⟨key, left, hrepeat⟩
        · dsimp only
          rw [hsame]
          cases lenient s₁ with
          | error fault => exact .inl rfl
          | ok got =>
            rcases ih false got.2 with hothers | ⟨key, left, hrepeat⟩
            · dsimp only
              rw [hothers]
              exact .inl rfl
            · exact .inr ⟨key, left, by simp only [hrepeat]⟩
        · exact .inr ⟨key, left, by simp only [hrepeat]⟩

/-- The fault of a repeated key names it. -/
theorem exists_duplicateFault (key : String) (s : List Char) :
    ∃ left, duplicateFault key s = ⟨.duplicateKey key, left⟩ := by
  unfold duplicateFault
  split <;> exact ⟨_, rfl⟩

theorem readMembers_refuses (h : ∀ s, RefusesOnlyRepeats (strict s) (lenient s)) (fuel : Nat)
    (written : List String) (s : List Char) :
    RefusesOnlyRepeats (readMembers .distinct strict fuel written s)
      (readMembers .any lenient fuel written s) := by
  induction fuel generalizing written s with
  | zero => exact .inl rfl
  | succ fuel ih =>
    rw [readMembers, readMembers]
    cases Enclosure.object.next written.isEmpty s with
    | error fault => exact .inl rfl
    | ok part =>
      obtain ⟨_ | _, s₁⟩ := part
      · exact .inl rfl
      · dsimp only
        cases readKey s₁ with
        | error fault => exact .inl rfl
        | ok named =>
          obtain ⟨key, s₂⟩ := named
          rcases h s₂ with hsame | ⟨other, left, hrepeat⟩
          · dsimp only
            rw [hsame]
            cases lenient s₂ with
            | error fault => exact .inl rfl
            | ok got =>
              dsimp only
              rw [if_neg (by simp [KeyRule.refuses] : ¬ KeyRule.any.refuses written key = true)]
              split_ifs
              · obtain ⟨left, hfault⟩ := exists_duplicateFault key got.2
                exact .inr ⟨key, left, by rw [hfault]⟩
              · rcases ih (key :: written) got.2 with hothers | ⟨other, left, hrepeat⟩
                · rw [hothers]
                  exact .inl rfl
                · exact .inr ⟨other, left, by rw [hrepeat]⟩
          · exact .inr ⟨other, left, by simp only [hrepeat]⟩

theorem valueWith_refuses {outer inner : Option (Reader FaultCause Json)}
    (h : Option.Rel (fun strict lenient => ∀ s, RefusesOnlyRepeats (strict s) (lenient s))
      outer inner) (s : List Char) :
    RefusesOnlyRepeats (valueWith .distinct outer s) (valueWith .any inner s) := by
  simp only [valueWith]
  cases skipSpace s with
  | nil => exact .inl rfl
  | cons c s =>
    dsimp only
    split_ifs
    all_goals try exact .inl rfl
    · cases h with
      | none => exact .inl rfl
      | some h => exact (readItems_refuses h _ _ _).map _
    · cases h with
      | none => exact .inl rfl
      | some h => exact (readMembers_refuses h _ _ _).map _

theorem readValue_refuses (depth : Nat) (s : List Char) :
    RefusesOnlyRepeats (readValue .distinct depth s) (readValue .any depth s) := by
  induction depth generalizing s with
  | zero => exact valueWith_refuses .none s
  | succ depth ih => exact valueWith_refuses (.some ih) s

/-- A text that is refused is no document, or it repeats a key. -/
theorem read_refuses (text : String) :
    RefusesOnlyRepeats (read .distinct text) (read .any text) := by
  rcases readValue_refuses maxDepth text.toList with hsame | ⟨key, left, hrepeat⟩
  · refine .inl ?_
    rw [read, read, hsame]
  · refine .inr ⟨key, left, ?_⟩
    rw [read, hrepeat]

/-! ## Repeated keys -/

/-- Some object in the text writes a key twice. -/
def RepeatsKey (text : String) : Prop :=
  ∃ document members, Spells text document ∧ PartOf (.object members) document ∧
    ¬ (members.map Prod.fst).Nodup

variable {text : String} {document : Json}

theorem Spells.not_repeatsKey_iff (h : Spells text document) :
    ¬ RepeatsKey text ↔ DistinctKeys document := by
  rw [distinctKeys_iff_parts]
  constructor
  · intro hrepeats members inside
    by_contra hmembers
    exact hrepeats ⟨document, members, h, inside, hmembers⟩
  · rintro distinct ⟨other, members, hother, inside, hmembers⟩
    obtain rfl := h.unique hother
    exact hmembers (distinct members inside)

theorem readDistinct_iff_readLastWins :
    readDistinct text = .ok document ↔ readLastWins text = .ok document ∧ ¬ RepeatsKey text := by
  rw [readDistinct_eq_ok_iff, readLastWins, map_eq_ok_iff]
  constructor
  · rintro ⟨hread, distinct⟩
    obtain ⟨spelled, -⟩ := read_any_iff_spells.mp hread
    exact ⟨⟨document, hread, distinct.lastWins_eq_self⟩, spelled.not_repeatsKey_iff.mpr distinct⟩
  · rintro ⟨⟨written, hread, rfl⟩, hrepeats⟩
    obtain ⟨spelled, -⟩ := read_any_iff_spells.mp hread
    have distinct := spelled.not_repeatsKey_iff.mp hrepeats
    rw [distinct.lastWins_eq_self]
    exact ⟨hread, distinct⟩

theorem readLastWins_eq_error_or_duplicateKey {fault : Fault}
    (h : readDistinct text = .error fault) :
    readLastWins text = .error fault ∨ ∃ key, fault.cause = .duplicateKey key := by
  rcases read_refuses text with hsame | ⟨key, left, hrepeat⟩
  · left
    rwa [readLastWins, map_eq_error_iff, ← hsame]
  · right
    rw [readDistinct, hrepeat, Except.error.injEq] at h
    exact ⟨key, by rw [← h]⟩

/-- A text with a repeated key has no reading, wherever the key is repeated. -/
theorem RepeatsKey.exists_fault (h : RepeatsKey text) :
    ∃ fault, readDistinct text = .error fault := by
  cases hread : readDistinct text with
  | error fault => exact ⟨fault, rfl⟩
  | ok document => exact absurd h (readDistinct_iff_readLastWins.mp hread).2

/-- Two spellings of one key. -/
example : readDistinct "\x7b\"a\":1,\"\\u0061\":2\x7d" = .error ⟨.duplicateKey "a", 0⟩ := by
  decide +kernel

/-- The strict reader accepts what the plain one accepts, with the same document, when no object
in the text repeats a key. An accepted document has what is written in the text and nothing else,
in the same order. A refusal is the plain reader's own, or names a repeated key. A text with a
repeated key serves no request, whatever its paths are. -/
theorem readDistinct_plain_without_repeats (text : String) :
    (∀ document, readDistinct text = .ok document ↔
      readLastWins text = .ok document ∧ ¬ RepeatsKey text) ∧
    (∀ document, readDistinct text = .ok document → Spells text document ∧
      ∀ members, PartOf (.object members) document → (members.map Prod.fst).Nodup) ∧
    (∀ fault, readDistinct text = .error fault →
      readLastWins text = .error fault ∨ ∃ key, fault.cause = .duplicateKey key) ∧
    (RepeatsKey text → ∃ fault, readDistinct text = .error fault ∧
      ((∃ document, readLastWins text = .ok document) → ∃ key, fault.cause = .duplicateKey key) ∧
      ∀ (files : Files) (store : DatasetStore) (locale : Locale) (request : String)
        (parsed : Request) (selection : Selection), Request.parse request = .ok parsed →
        files (store.locate locale parsed) = .ok text.toUTF8 →
        resolve files store locale request selection =
          .done (.error (.malformedDocument (store.locate locale parsed) fault.cause
            (.ofLeft text fault.left)))) := by
  refine ⟨fun document => readDistinct_iff_readLastWins, ?_,
    fun fault => readLastWins_eq_error_or_duplicateKey, ?_⟩
  · intro document hread
    obtain ⟨hany, distinct⟩ := readDistinct_eq_ok_iff.mp hread
    exact ⟨(read_any_iff_spells.mp hany).1, distinctKeys_iff_parts.mp distinct⟩
  · intro hrepeats
    obtain ⟨fault, hfault⟩ := hrepeats.exists_fault
    refine ⟨fault, hfault, ?_, ?_⟩
    · rintro ⟨document, hplain⟩
      rcases readLastWins_eq_error_or_duplicateKey hfault with hsame | hduplicate
      · rw [hplain] at hsame
        cases hsame
      · exact hduplicate
    · intro files store locale request parsed selection accepted readable
      exact resolve_of_firstFailure (.document accepted readable hfault) selection

end FakeData.Json
