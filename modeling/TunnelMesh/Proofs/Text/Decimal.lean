import Mathlib
import TunnelMesh.Text.Decimal

/-!
# Digits of numbers

A number is written with digits only, at least one of them, and with a leading zero only if it is
zero (`Decimal.head?_digits`), and it is read back from them (`Decimal.natural?_digits`), so that
no two numbers have one text (`Decimal.text_injective`).
-/

namespace TunnelMesh.Decimal

theorem isDigit_of_mem_digits {n : Nat} {c : Char} (h : c ∈ digits n) : c.isDigit = true :=
  Nat.isDigit_of_mem_toDigits (by decide) (by decide) h

/-- Every number has a digit. -/
theorem digits_ne_nil (n : Nat) : digits n ≠ [] :=
  Nat.toDigits_ne_nil

/-- A number is read back from its digits. -/
theorem natural?_digits (n : Nat) : natural? (digits n) = some n := by
  have hdigits : (digits n).all Char.isDigit = true :=
    List.all_eq_true.2 fun c hc => isDigit_of_mem_digits hc
  rw [natural?, if_pos ⟨digits_ne_nil n, hdigits⟩, value_digits]

/-- Numbers are written differently. -/
theorem text_injective : Function.Injective text := by
  intro m n h
  rw [text, text, String.ofList_inj] at h
  rw [← value_digits m, h, value_digits]

/-- Only zero is written with a zero at the front. -/
theorem head?_digits {n : Nat} (h : 0 < n) : (digits n).head? ≠ some '0' := by
  induction n using Nat.strongRecOn with
  | ind n ih =>
    rw [digits, Nat.toDigits_eq_if (by decide)]
    split
    · simp only [List.head?_cons, ne_eq, Option.some.injEq, Nat.digitChar_eq_zero]
      omega
    · rw [List.head?_append_of_ne_nil _ Nat.toDigits_ne_nil]
      exact ih (n / 10) (by omega) (by omega)

/-- A number that is not written with a single digit has no leading zero. -/
theorem length_digits_or_head?_digits (n : Nat) :
    (digits n).length = 1 ∨ (digits n).head? ≠ some '0' := by
  cases n with
  | zero => exact .inl rfl
  | succ n => exact .inr (head?_digits n.succ_pos)

end TunnelMesh.Decimal
