import FakeData.Random.Sampler
import Mathlib.Data.Nat.Find
import Mathlib.Logic.Function.Iterate

/-!
# Searching a stream

Once its pending words are gone, a stream is back where it was after `2 ^ 64` blocks, so whatever
word comes later comes within that round. A search that goes round once is therefore a search
through all the words of the stream, of which there is no end.
-/
namespace FakeData.Random.WordStream

variable {α : Type} {answer : UInt64 → Option α} {value : α} {stream rest : WordStream}
  {position count : Nat}

def skip32 (stream : WordStream) (count : Nat) : WordStream :=
  (fun stream => stream.next32.2)^[count] stream

def skip (stream : WordStream) (count : Nat) : WordStream :=
  (fun stream => stream.next64.2)^[count] stream

/-- A word of the stream, counted from zero. -/
def word (stream : WordStream) (position : Nat) : UInt64 :=
  (stream.skip position).next64.1

/-! ## Going round -/

theorem skip_eq_skip32 : stream.skip count = stream.skip32 (2 * count) :=
  (congrFun (Function.iterate_mul (fun stream : WordStream => stream.next32.2) 2 count) stream).symm

theorem skip32_add (more : Nat) :
    stream.skip32 (count + more) = (stream.skip32 count).skip32 more := by
  rw [Nat.add_comm]
  exact Function.iterate_add_apply _ more count stream

theorem skip32_pending (key : Key) (number : UInt64) (pending : List UInt32) :
    (WordStream.mk key number pending).skip32 pending.length = ⟨key, number, []⟩ := by
  induction pending with
  | nil => rfl
  | cons _ _ ih => exact ih

/-- The first word of a block leaves fifteen pending. -/
theorem skip32_block (key : Key) (number : UInt64) :
    (WordStream.mk key number []).skip32 16 = ⟨key, number + 1, []⟩ := by
  have pending := skip32_pending key (number + 1) ((block key number).toList.drop 1)
  rw [List.length_drop, Vector.length_toList] at pending
  exact pending

theorem skip32_blocks (key : Key) (number : UInt64) (count : Nat) :
    (WordStream.mk key number []).skip32 (16 * count) = ⟨key, number + .ofNat count, []⟩ := by
  induction count with
  | zero => exact congrArg (WordStream.mk key · []) (UInt64.add_zero number).symm
  | succ count ih =>
    rw [Nat.mul_succ, skip32_add, ih, skip32_block, UInt64.add_assoc, UInt64.ofNat_add]
    rfl

/-- Without pending words, a stream is back where it was after one round. -/
theorem skip32_round (key : Key) (number : UInt64) :
    (WordStream.mk key number []).skip32 (2 * round) = ⟨key, number, []⟩ := by
  have blocks : 2 * round = 16 * 2 ^ 64 := rfl
  have wrap : UInt64.ofNat (2 ^ 64) = 0 := rfl
  rw [blocks, skip32_blocks, wrap, UInt64.add_zero]

theorem skip_add_round (gone : stream.pending.length ≤ position) :
    stream.skip (position + round) = stream.skip position := by
  obtain ⟨key, number, pending⟩ := stream
  replace gone : pending.length ≤ position := gone
  obtain ⟨more, hmore⟩ := Nat.exists_eq_add_of_le (by omega : pending.length ≤ 2 * position)
  have hround : 2 * (position + round) = pending.length + 2 * round + more := by omega
  rw [skip_eq_skip32, skip_eq_skip32, hround, hmore, skip32_add, skip32_add, skip32_add,
    skip32_pending, skip32_round]

/-! ## The first word with an answer -/

/-- The first word that has an answer stands here, and this is its answer. -/
structure FirstAt (stream : WordStream) (answer : UInt64 → Option α) (position : Nat)
    (value : α) : Prop where
  rejected : ∀ earlier < position, answer (stream.word earlier) = none
  accepted : answer (stream.word position) = some value

theorem FirstAt.later (first : answer stream.next64.1 = none)
    (h : stream.next64.2.FirstAt answer position value) :
    stream.FirstAt answer (position + 1) value where
  rejected := by
    intro earlier hearlier
    cases earlier with
    | zero => exact first
    | succ earlier => exact h.rejected earlier (by omega)
  accepted := h.accepted

/-- A search that finds an answer has found the first one. -/
theorem firstAt_of_search (h : search answer count stream = some (value, rest)) :
    ∃ position, stream.FirstAt answer position value ∧ rest = stream.skip (position + 1) := by
  induction count generalizing stream with
  | zero => cases h
  | succ count ih =>
    rw [search] at h
    split at h
    · cases h
      exact ⟨0, ⟨by omega, ‹_›⟩, rfl⟩
    · obtain ⟨position, first, hrest⟩ := ih h
      exact ⟨position + 1, first.later ‹_›, hrest⟩

theorem search_of_firstAt (first : stream.FirstAt answer position value)
    (below : position < count) :
    search answer count stream = some (value, stream.skip (position + 1)) := by
  induction count generalizing stream position with
  | zero => omega
  | succ count ih =>
    rw [search]
    cases position with
    | zero =>
      have found : answer stream.next64.1 = some value := first.accepted
      rw [found]
      rfl
    | succ position =>
      have missed : answer stream.next64.1 = none := first.rejected 0 (by omega)
      have later : stream.next64.2.FirstAt answer position value :=
        ⟨fun earlier hearlier => first.rejected (earlier + 1) (by omega), first.accepted⟩
      rw [missed]
      exact ih later (by omega)

/-- The first answer comes before the stream has gone round. -/
theorem FirstAt.lt_round (first : stream.FirstAt answer position value) :
    position < round + stream.pending.length := by
  by_contra beyond
  have positive : 0 < round := by decide
  have same : stream.word (position - round) = stream.word position := by
    have hround : position - round + round = position := by omega
    rw [word, word, ← skip_add_round (by omega), hround]
  have missed := first.rejected (position - round) (by omega)
  rw [same, first.accepted] at missed
  cases missed

/-- The words up to the first one with an answer are taken from the stream, as far on as it may
stand. -/
theorem first_eq_some_iff : stream.first answer = some (value, rest) ↔
    ∃ position, stream.FirstAt answer position value ∧ rest = stream.skip (position + 1) := by
  refine ⟨firstAt_of_search, ?_⟩
  rintro ⟨position, first, rfl⟩
  exact search_of_firstAt first first.lt_round

/-- The search ends exactly if some word has an answer. -/
theorem exists_first_iff : (∃ value rest, stream.first answer = some (value, rest)) ↔
    ∃ position, (answer (stream.word position)).isSome := by
  constructor
  · rintro ⟨value, rest, h⟩
    obtain ⟨position, first, -⟩ := first_eq_some_iff.mp h
    exact ⟨position, by rw [first.accepted, Option.isSome_some]⟩
  · intro h
    classical
    obtain ⟨value, hvalue⟩ := Option.isSome_iff_exists.mp (Nat.find_spec h)
    refine ⟨value, _, first_eq_some_iff.mpr ⟨_, ⟨fun earlier hearlier => ?_, hvalue⟩, rfl⟩⟩
    exact Option.not_isSome_iff_eq_none.mp (Nat.find_min h hearlier)

end FakeData.Random.WordStream
