import FakeData.Number.Digits
import Mathlib.Data.List.Basic

/-!
# Decimal digits

The number that digits spell is the one whose digits they are.
-/
namespace FakeData.Number

variable {c : Char} {s : List Char}

theorem digit?_of_isDigit (h : c.isDigit = true) : digit? 10 c = some (c.toNat - '0'.toNat) := by
  have hlt : c.toNat - '0'.toNat < 10 := by
    simp only [Char.isDigit, Bool.and_eq_true, decide_eq_true_eq, ge_iff_le,
      UInt32.le_iff_toNat_le] at h
    have hc : c.toNat = c.val.toNat := rfl
    have h0 : '0'.toNat = 48 := rfl
    have h48 : '0'.val.toNat = 48 := rfl
    have h57 : '9'.val.toNat = 57 := rfl
    omega
  simp only [digit?, h, if_true, if_pos hlt]

theorem digitsFrom?_of_isDigit (h : ∀ c ∈ s, c.isDigit = true) (value : Nat) :
    digitsFrom? 10 value s = some (Nat.ofDigitChars 10 s value) := by
  induction s generalizing value with
  | nil => rfl
  | cons c s ih =>
    obtain ⟨hc, hs⟩ := List.forall_mem_cons.mp h
    rw [digitsFrom?, digit?_of_isDigit hc, Option.bind_some, ih hs, Nat.mul_comm value,
      Nat.ofDigitChars_cons]

theorem isDigit_of_mem_toDigits {n : Nat} (h : c ∈ Nat.toDigits 10 n) : c.isDigit = true :=
  Nat.isDigit_of_mem_toDigits (by decide) (Nat.le_refl 10) h

theorem toDigits_ne_nil (n : Nat) : Nat.toDigits 10 n ≠ [] := by
  rw [Nat.toDigits_eq_if (by decide)]
  split <;> simp

/-- The first digit of a number is a zero only for zero. -/
theorem exists_toDigits {n : Nat} (h : 0 < n) : ∃ c s, Nat.toDigits 10 n = c :: s ∧ c ≠ '0' := by
  induction n using Nat.strongRecOn with
  | ind n ih =>
    rw [Nat.toDigits_eq_if (by decide)]
    split
    · rename_i hlt
      have hall : ∀ d < 10, 0 < d → Nat.digitChar d ≠ '0' := by decide
      exact ⟨_, _, rfl, hall n hlt h⟩
    · obtain ⟨c, s, hdigits, hc⟩ := ih (n / 10) (by omega) (by omega)
      exact ⟨c, s ++ [(n % 10).digitChar], by rw [hdigits, List.cons_append], hc⟩

theorem digits?_toDigits (n : Nat) : digits? 10 (Nat.toDigits 10 n) = some n := by
  rw [digits?, if_neg (toDigits_ne_nil n), digitsFrom?_of_isDigit fun c => isDigit_of_mem_toDigits,
    Nat.ofDigitChars_ten_toDigits]

end FakeData.Number
