import FakeData.Proofs.Random.Stream
import Mathlib.Algebra.Order.Floor.Div
import Mathlib.Algebra.BigOperators.Group.Finset.Basic
import Mathlib.Data.FinEnum
import Mathlib.Data.Set.Card
import Mathlib.Order.Interval.Finset.Nat

/-!
# Fair samples

A word gives an offset when its product with the size lies in an interval that starts at a multiple
of `2 ^ 64`. The interval is as long as a power of two times the size, so it holds that power of
multiples of the size wherever it starts. Every offset therefore has the same number of words.
-/
namespace FakeData.Random

variable {size n : Nat} {bits : UInt64} {stream : WordStream}

/-! ## The zone -/

theorem wordCount_eq : wordCount = 2 ^ 64 := by
  rw [wordCount, Nat.shiftLeft_eq, Nat.one_mul]

/-- The shifted size has its leading one in the first bit of a word. -/
theorem shifted_bounds (positive : 0 < size) (fits : size < wordCount) :
    2 ^ 63 ≤ size * 2 ^ leadingZeros size ∧ size * 2 ^ leadingZeros size < wordCount := by
  have hlog : size.log2 < 64 := (Nat.log2_lt (by omega)).mpr fits
  have hsplit : 2 ^ size.log2 * 2 ^ leadingZeros size = 2 ^ 63 := by
    rw [← Nat.pow_add, leadingZeros]
    congr 1
    omega
  have hword : wordCount = 2 ^ (size.log2 + 1) * 2 ^ leadingZeros size := by
    rw [Nat.pow_succ, Nat.mul_right_comm, hsplit]
    rfl
  constructor
  · rw [← hsplit]
    exact Nat.mul_le_mul_right _ (Nat.log2_self_le (by omega))
  · rw [hword]
    exact Nat.mul_lt_mul_of_pos_right Nat.lt_log2_self (Nat.two_pow_pos _)

theorem zone_add_one (positive : 0 < size) (fits : size < wordCount) :
    zone size + 1 = size * 2 ^ leadingZeros size := by
  obtain ⟨hlarge, hword⟩ := shifted_bounds positive fits
  rw [zone, Nat.shiftLeft_eq, Nat.mod_eq_of_lt (by omega)]
  omega

/-- A word gives an offset when the product reaches the multiple of the offset and stays in the
zone above it. -/
theorem offset?_eq_some_iff (positive : 0 < size) (fits : size < wordCount) :
    offset? size bits = some n ↔
      n * wordCount ≤ size * bits.toNat ∧
        size * bits.toNat < n * wordCount + size * 2 ^ leadingZeros size := by
  have hzone := zone_add_one positive fits
  obtain ⟨-, hword⟩ := shifted_bounds positive fits
  have hsplit := Nat.div_add_mod (size * bits.toNat) wordCount
  rw [offset?, Nat.mul_comm bits.toNat, Option.ite_none_right_eq_some, Option.some.injEq]
  constructor
  · rintro ⟨hlow, rfl⟩
    rw [Nat.mul_comm] at hsplit
    omega
  · rintro ⟨hleast, hlimit⟩
    have hn : size * bits.toNat / wordCount = n := by
      rw [Nat.div_eq_iff (by decide)]
      omega
    rw [hn, Nat.mul_comm] at hsplit
    exact ⟨by omega, hn⟩

/-! ## Counting words -/

/-- The least factor with which the size reaches the multiple of an offset. -/
def firstFactor (size n : Nat) : Nat := (n * wordCount) ⌈/⌉ size

/-- As many factors in a row stay within an interval as the size goes into its length. -/
theorem factor_between_iff (positive : 0 < size) (count factor : Nat) :
    n * wordCount ≤ size * factor ∧ size * factor < n * wordCount + size * count ↔
      firstFactor size n ≤ factor ∧ factor < firstFactor size n + count := by
  have hreach : ∀ other, firstFactor size n ≤ other ↔ n * wordCount ≤ size * other :=
    fun other => ceilDiv_le_iff_le_mul positive
  rw [hreach]
  refine and_congr_right fun _ => ?_
  by_cases hfew : factor < count
  · have hsmall : size * factor < size * count := Nat.mul_lt_mul_of_pos_left hfew positive
    omega
  · have hshift := hreach (factor - count)
    rw [Nat.mul_sub] at hshift
    have hlarge : size * count ≤ size * factor := Nat.mul_le_mul_left size (by omega)
    omega

/-- The words that are accepted for an offset. -/
def wordsOf (size n : Nat) : Finset UInt64 := Finset.univ.filter (offset? size · = some n)

def acceptedWords (size : Nat) : Finset UInt64 :=
  Finset.univ.filter fun bits => (offset? size bits).isSome

/-- Every offset has the same number of words, a power of two. -/
theorem card_wordsOf (fits : size < wordCount) (below : n < size) :
    (wordsOf size n).card = 2 ^ leadingZeros size := by
  have positive : 0 < size := by omega
  obtain ⟨-, hshifted⟩ := shifted_bounds positive fits
  have hinterval : (wordsOf size n).map ⟨UInt64.toNat, fun _ _ => UInt64.toNat_inj.mp⟩ =
      Finset.Ico (firstFactor size n) (firstFactor size n + 2 ^ leadingZeros size) := by
    ext factor
    simp only [wordsOf, Finset.mem_map, Finset.mem_filter, Finset.mem_univ, true_and,
      Finset.mem_Ico, offset?_eq_some_iff positive fits,
      ← factor_between_iff positive]
    constructor
    · rintro ⟨bits, hbits, rfl⟩
      exact hbits
    · intro hfactor
      -- The product stays below the next multiple, so the factor is a word.
      have hnext : (n + 1) * wordCount ≤ size * wordCount := Nat.mul_le_mul_right _ below
      have hword : factor < wordCount := by
        refine Nat.lt_of_mul_lt_mul_left (a := size) ?_
        rw [Nat.add_one_mul] at hnext
        omega
      have hvalue : (UInt64.ofNat factor).toNat = factor := UInt64.toNat_ofNat_of_lt' hword
      exact ⟨.ofNat factor, by rwa [hvalue], hvalue⟩
  rw [← Finset.card_map, hinterval, Nat.card_Ico, Nat.add_sub_cancel_left]

/-- The accepted words are shared out among the offsets. -/
theorem card_acceptedWords (positive : 0 < size) (fits : size < wordCount) :
    (acceptedWords size).card = size * 2 ^ leadingZeros size := by
  have hmaps : ∀ bits ∈ acceptedWords size,
      (offset? size bits).getD 0 ∈ Finset.range size := by
    intro bits hbits
    obtain ⟨n, hn⟩ := Option.isSome_iff_exists.mp (Finset.mem_filter.mp hbits).2
    rw [hn, Option.getD_some, Finset.mem_range]
    exact lt_of_offset? positive hn
  have hfiber : ∀ n ∈ Finset.range size,
      ((acceptedWords size).filter fun bits => (offset? size bits).getD 0 = n).card =
        2 ^ leadingZeros size := by
    intro n hn
    rw [← card_wordsOf fits (Finset.mem_range.mp hn), acceptedWords, wordsOf,
      Finset.filter_filter]
    refine congrArg Finset.card (Finset.filter_congr fun bits _ => ?_)
    cases offset? size bits <;> simp
  rw [Finset.card_eq_sum_card_fiberwise hmaps, Finset.sum_congr rfl hfiber, Finset.sum_const,
    Finset.card_range, smul_eq_mul]

/-- No more than half of all words are rejected, so a stream with more words than that has an
accepted one for each size. -/
theorem exists_accepted (positive : 0 < size) (fits : size < wordCount)
    (varied : 2 ^ 63 < (Set.range stream.word).ncard) :
    ∃ position, (offset? size (stream.word position)).isSome := by
  by_contra hnone
  have hdisjoint : Disjoint (Set.range stream.word) (acceptedWords size : Set UInt64) := by
    rw [Set.disjoint_left]
    rintro bits ⟨position, rfl⟩ haccepted
    exact hnone ⟨position, by simpa [acceptedWords] using haccepted⟩
  have hall : (Set.range stream.word ∪ (acceptedWords size : Set UInt64)).ncard ≤ wordCount := by
    have hfin : UInt64 ≃ Fin wordCount :=
      ⟨UInt64.toFin, UInt64.ofFin, fun _ => rfl, fun _ => rfl⟩
    have hcount : Nat.card UInt64 = wordCount := (Nat.card_congr hfin).trans (Nat.card_fin _)
    rw [← hcount]
    exact Set.ncard_le_card _
  rw [Set.ncard_union_eq hdisjoint, Set.ncard_coe_finset, card_acceptedWords positive fits,
    wordCount_eq] at hall
  have hhalf := (shifted_bounds positive fits).1
  omega

/-! ## Integers -/

theorem toInt_eq_bmod (x : Int64) : x.toInt = (x.toUInt64.toNat : Int).bmod wordCount :=
  BitVec.toInt_eq_toNat_bmod x.toBitVec

/-- The size of a range is exact, although the difference of its ends can be too large for a
number with a sign. -/
theorem toNat_sub {least limit : Int64} (h : least.toInt < limit.toInt) :
    ((limit - least).toUInt64.toNat : Int) = limit.toInt - least.toInt := by
  have hleast := least.le_toInt
  have hlimit := limit.toInt_lt
  have hsize := (limit - least).toUInt64.toNat_lt
  have hsame : ((limit - least).toUInt64.toNat : Int).bmod wordCount =
      (limit.toInt - least.toInt).bmod wordCount := by
    rw [← toInt_eq_bmod]
    exact Int64.toInt_sub limit least
  have hcount : (wordCount : Int) = 2 ^ 64 := rfl
  have hmod := congrArg (· % (wordCount : Int)) hsame
  simp only [Int.bmod_emod] at hmod
  rwa [Int.emod_eq_of_lt (by omega) (by omega), Int.emod_eq_of_lt (by omega) (by omega)] at hmod

/-- A sum that stays below a word does not wrap. -/
theorem toInt_add_of_lt {least : Int64} (limit : Int64) (h : least.toInt + n < limit.toInt) :
    (least + (UInt64.ofNat n).toInt64).toInt = least.toInt + n := by
  have hleast := least.le_toInt
  have hlimit := limit.toInt_lt
  have hword : n < 2 ^ 64 := by omega
  have hoffset : (UInt64.ofNat n).toInt64.toInt = (n : Int).bmod wordCount := by
    rw [toInt_eq_bmod, UInt64.toUInt64_toInt64, UInt64.toNat_ofNat_of_lt' hword]
  rw [Int64.toInt_add, hoffset]
  have hadd : (least.toInt + (n : Int).bmod wordCount).bmod (2 ^ 64) =
      (least.toInt + n).bmod (2 ^ 64) := Int.add_bmod_bmod
  rw [hadd, Int.bmod_eq_of_le (by omega) (by omega)]

/-- An integer is the least one plus an offset below the number of integers in the range. -/
theorem nextInt_eq {least limit : Int64} (hsize : limit.toInt - least.toInt = size)
    (positive : 0 < size) :
    stream.nextInt least.toInt limit.toInt =
      .ok ((stream.drawOffset size).map fun (n, rest) => (least.toInt + n, rest)) := by
  have hexact : (limit - least).toUInt64.toNat = size := by
    have h := toNat_sub (by omega : least.toInt < limit.toInt)
    omega
  rw [WordStream.nextInt, if_neg (by omega)]
  simp only [Int64.ofInt_toInt, hexact]
  cases hdrawn : stream.drawOffset size with
  | none => rfl
  | some drawn =>
    have hbelow := WordStream.lt_of_drawOffset positive hdrawn
    simp only [Option.map_some]
    rw [toInt_add_of_lt limit (by omega)]

theorem nextIndex_eq (positive : 0 < size) :
    stream.nextIndex size = .ok (stream.drawOffset size) :=
  if_neg (by omega)

theorem next_of_drawOffset {rest : WordStream} (positive : 0 < size)
    (h : stream.drawOffset size = some (n, rest)) :
    IndexSource.next stream size positive =
      (⟨n, WordStream.lt_of_drawOffset positive h⟩, rest) := by
  simp only [IndexSource.next]
  split
  · rename_i hdrawn
    rw [h] at hdrawn
    cases hdrawn
    rfl
  · rename_i hdrawn
    rw [h] at hdrawn
    cases hdrawn

/-- However the product is rounded, a double stays below the limit of its range. -/
theorem nextFloat_lt {least limit x : Float} {rest : WordStream}
    (h : stream.nextFloat least limit = .ok (some (x, rest))) : x < limit := by
  unfold WordStream.nextFloat at h
  dsimp only at h
  split_ifs at h
  obtain ⟨bits, hbits⟩ := WordStream.exists_answer_of_search (Except.ok.inj h)
  rw [WordStream.float?, Option.ite_none_right_eq_some, Option.some.injEq] at hbits
  obtain ⟨below, rfl⟩ := hbits
  exact below

/-- The range of all integers of a word but the largest. -/
example : (Int64.maxValue - Int64.minValue).toUInt64.toNat = 2 ^ 64 - 1 := rfl

/-- Whatever the state of a stream, an index is drawn below its bound and an integer within its
range, as far apart as the ends of the range may be. Both come from the first word of the endless
stream that is accepted for the size of the range, and the words up to it are taken. Only a stream
without such a word gives nothing, and it misses half of all words. At least every other word is
accepted, and those that are accepted are shared out evenly, a power of two for each offset. -/
theorem samples_in_range_and_unbiased (stream : WordStream) :
    (∀ bound, ∀ positive : 0 < bound, stream.nextIndex bound = .ok (stream.drawOffset bound) ∧
      ∀ n rest, stream.drawOffset bound = some (n, rest) →
        ∃ below : n < bound, IndexSource.next stream bound positive = (⟨n, below⟩, rest)) ∧
    (∀ least limit : Int64, least < limit →
      ∃ size : Nat, limit.toInt - least.toInt = size ∧ 0 < size ∧ size < 2 ^ 64 ∧
        stream.nextInt least.toInt limit.toInt =
          .ok ((stream.drawOffset size).map fun (n, rest) => (least.toInt + n, rest)) ∧
        ∀ n rest, stream.nextInt least.toInt limit.toInt = .ok (some (n, rest)) →
          least.toInt ≤ n ∧ n < limit.toInt) ∧
    (∀ size n rest, stream.drawOffset size = some (n, rest) ↔
      ∃ position, stream.FirstAt (offset? size) position n ∧ rest = stream.skip (position + 1)) ∧
    (∀ size, (∃ n rest, stream.drawOffset size = some (n, rest)) ↔
      ∃ position, (offset? size (stream.word position)).isSome) ∧
    ∀ size, 0 < size → size < 2 ^ 64 →
      ((∃ n rest, stream.drawOffset size = some (n, rest)) ∨
        (Set.range stream.word).ncard ≤ 2 ^ 63) ∧
      (2 ^ 63 ≤ size * 2 ^ leadingZeros size ∧ size * 2 ^ leadingZeros size < 2 ^ 64) ∧
      (∀ n < size, (wordsOf size n).card = 2 ^ leadingZeros size) ∧
      2 ^ 63 ≤ (acceptedWords size).card := by
  refine ⟨?_, ?_, fun _ _ _ => WordStream.first_eq_some_iff,
    fun _ => WordStream.exists_first_iff, ?_⟩
  · intro bound positive
    refine ⟨nextIndex_eq positive, fun n rest h => ?_⟩
    exact ⟨WordStream.lt_of_drawOffset positive h, next_of_drawOffset positive h⟩
  · intro least limit h
    have hlt : least.toInt < limit.toInt := Int64.lt_iff_toInt_lt.mp h
    obtain ⟨size, hsize⟩ := Int.eq_ofNat_of_zero_le (by omega : 0 ≤ limit.toInt - least.toInt)
    have hleast := least.le_toInt
    have hlimit := limit.toInt_lt
    have hdrawn := @nextInt_eq _ stream _ _ hsize (by omega)
    refine ⟨size, hsize, by omega, by omega, hdrawn, fun m rest hm => ?_⟩
    rw [hdrawn, Except.ok.injEq, Option.map_eq_some_iff] at hm
    obtain ⟨⟨n, rest⟩, hn, hpair⟩ := hm
    cases hpair
    have hbelow := WordStream.lt_of_drawOffset (by omega) hn
    omega
  · intro size positive fits
    rw [← wordCount_eq] at fits ⊢
    have hbounds := shifted_bounds positive fits
    refine ⟨?_, hbounds, fun n below => card_wordsOf fits below, ?_⟩
    · by_cases varied : 2 ^ 63 < (Set.range stream.word).ncard
      · exact .inl (WordStream.exists_first_iff.mpr (exists_accepted positive fits varied))
      · exact .inr (by omega)
    rw [card_acceptedWords positive fits]
    exact hbounds.1

end FakeData.Random
