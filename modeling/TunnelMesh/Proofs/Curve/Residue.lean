import Mathlib
import TunnelMesh.Proofs.Curve.Primes

/-!
# Elements of the field as residues

The runnable elements are the residues modulo the prime. `Element.residue` maps every operation on
elements to the operation of the field `Residue` (`residue_add`, `residue_mul`, `residue_inv`), and
`sqrt?` finds the even root of every square (`sqrt?_mul_self`) and of nothing else
(`mul_self_of_sqrt?`).
-/

namespace TunnelMesh.Curve

instance : Fact prime.Prime := ⟨prime_prime⟩

/-- The field of the curve. -/
abbrev Residue := ZMod prime

namespace Element

/-- The residue of an element. -/
def residue (a : Element) : Residue :=
  (a.val : ZMod prime)

/-! ## Operations -/

/-- A number has the residue of the element that it gives. -/
@[simp] theorem residue_ofNat (n : Nat) : (ofNat n).residue = n :=
  ZMod.natCast_mod n prime

@[simp] theorem residue_zero : (0 : Element).residue = 0 :=
  (residue_ofNat 0).trans Nat.cast_zero

@[simp] theorem residue_one : (1 : Element).residue = 1 :=
  (residue_ofNat 1).trans Nat.cast_one

/-- Elements are added as residues are. -/
@[simp] theorem residue_add (a b : Element) : (a + b).residue = a.residue + b.residue := by
  rw [residue, Fin.val_add, ZMod.natCast_mod, Nat.cast_add]; rfl

/-- Elements are multiplied as residues are. -/
@[simp] theorem residue_mul (a b : Element) : (a * b).residue = a.residue * b.residue := by
  rw [residue, Fin.val_mul, ZMod.natCast_mod, Nat.cast_mul]; rfl

/-- Elements are negated as residues are. -/
@[simp] theorem residue_neg (a : Element) : (-a).residue = -a.residue := by
  have hval : (-a).val = (prime - a.val) % prime := rfl
  rw [residue, hval, ZMod.natCast_mod, Nat.cast_sub a.isLt.le, ZMod.natCast_self, zero_sub]; rfl

/-- Elements are subtracted as residues are. -/
@[simp] theorem residue_sub (a b : Element) : (a - b).residue = a.residue - b.residue := by
  have hval : (a - b).val = (prime - b.val + a.val) % prime := rfl
  rw [residue, hval, ZMod.natCast_mod, Nat.cast_add, Nat.cast_sub b.isLt.le, ZMod.natCast_self,
    zero_sub, add_comm, ← sub_eq_add_neg]; rfl

/-- The residue determines the element. -/
theorem residue_inj {a b : Element} : a.residue = b.residue ↔ a = b := by
  refine ⟨fun h => ?_, fun h => h ▸ rfl⟩
  have := (ZMod.natCast_eq_natCast_iff' a.val b.val prime).1 h
  rw [Nat.mod_eq_of_lt a.isLt, Nat.mod_eq_of_lt b.isLt] at this
  exact Fin.ext this

/-- Only zero has the residue zero. -/
@[simp] theorem residue_eq_zero {a : Element} : a.residue = 0 ↔ a = 0 := by
  rw [← residue_zero, residue_inj]

/-- The number of an element is the number of its residue. -/
theorem val_residue (a : Element) : a.residue.val = a.val :=
  ZMod.val_natCast_of_lt a.isLt

/-- Squaring and multiplying bit by bit makes the power. -/
theorem residue_powBits (a : Element) {bits n : Nat} (hn : n < 2 ^ bits) :
    (powBits a bits n).residue = a.residue ^ n := by
  induction bits generalizing n with
  | zero =>
    obtain rfl : n = 0 := by simpa using hn
    simp [powBits]
  | succ bits ih =>
    have hhalf : n / 2 < 2 ^ bits := by rw [pow_succ] at hn; omega
    have hsplit : n = n / 2 + n / 2 + n % 2 := by omega
    rw [powBits]
    conv_rhs => rw [hsplit, pow_add, pow_add, ← ih hhalf]
    rcases Nat.mod_two_eq_zero_or_one n with h | h <;> simp [h]

/-- Elements are raised to powers as residues are. -/
@[simp] theorem residue_pow (a : Element) {n : Nat} (hn : n < 2 ^ 256) :
    (pow a n).residue = a.residue ^ n :=
  residue_powBits a hn

/-- The prime has as many bits as a power goes through. -/
theorem prime_lt : prime < 2 ^ 256 := by decide

/-- The inverse that is computed as a power is the inverse in the field. -/
@[simp] theorem residue_inv (a : Element) : (inv a).residue = a.residue⁻¹ := by
  rw [inv, residue_pow a (lt_of_le_of_lt (Nat.sub_le ..) prime_lt)]
  rcases eq_or_ne a.residue 0 with h | h
  · rw [h, inv_zero, zero_pow (by decide)]
  · refine eq_inv_of_mul_eq_one_left ?_
    rw [← pow_succ]
    exact ZMod.pow_card_sub_one_eq_one h

/-! ## Square roots -/

/-- The root of −1 is one. -/
theorem residue_rootOfMinusOne : rootOfMinusOne.residue * rootOfMinusOne.residue = -1 := by
  have h : rootOfMinusOne * rootOfMinusOne = -1 := by decide +kernel
  rw [← residue_mul, h, residue_neg, residue_one]

/-- The power that `sqrt?` takes is a root up to a root of −1. -/
theorem power_mul_self (r : Residue) :
    (r * r) ^ ((prime + 3) / 8) * (r * r) ^ ((prime + 3) / 8) = r * r ∨
      (r * r) ^ ((prime + 3) / 8) * (r * r) ^ ((prime + 3) / 8) = -(r * r) := by
  rcases eq_or_ne r 0 with rfl | hr
  · left; rw [mul_zero, zero_pow (by decide), mul_zero]
  · refine mul_self_eq_mul_self_iff.1 ?_
    have hexp : 8 * ((prime + 3) / 8) = prime - 1 + 4 := by decide
    calc _ = r ^ (8 * ((prime + 3) / 8)) := by rw [pow_mul, ← pow_two, ← pow_mul]; ring
      _ = r * r * (r * r) := by
        rw [hexp, pow_add, ZMod.pow_card_sub_one_eq_one hr]; ring

/-- Of an element and its negation, the even one. -/
def even (a : Element) : Element :=
  if a.val % 2 = 0 then a else -a

/-- The negative of an element is as far below the prime as the element is above zero. -/
theorem val_neg {a : Element} (ha : a ≠ 0) : (-a).val = prime - a.val := by
  have hval : (-a).val = (prime - a.val) % prime := rfl
  have hpos : 0 < a.val := Nat.pos_of_ne_zero fun h => ha (Fin.ext h)
  rw [hval, Nat.mod_eq_of_lt (by have := a.isLt; omega)]

/-- An element and its negation are not both even, unless they are 0. -/
theorem val_neg_mod_two {a : Element} (ha : a ≠ 0) : (-a).val % 2 = 1 - a.val % 2 := by
  have hodd : prime % 2 = 1 := by decide
  rw [val_neg ha]
  have := a.isLt
  omega

/-- An element and its negative have one even element between them. -/
theorem even_neg (a : Element) : (-a).even = a.even := by
  rcases eq_or_ne a 0 with rfl | ha
  · decide +kernel
  · have := val_neg_mod_two ha
    rw [even, even, neg_neg]
    split <;> split <;> first | rfl | omega

/-- The even one of an element and its negative is even. -/
theorem even_val (a : Element) : a.even.val % 2 = 0 := by
  rcases eq_or_ne a 0 with rfl | ha
  · decide +kernel
  · have := val_neg_mod_two ha
    rw [even]
    split <;> omega

/-- The even one of an element and its negative has the same square. -/
theorem even_mul_even (a : Element) : a.even * a.even = a * a := by
  rw [even]
  split
  · rfl
  · rw [← residue_inj, residue_mul, residue_neg, neg_mul_neg, residue_mul]

/-- Elements with one square have one even root. -/
theorem even_eq_of_mul_self {a b : Element} (h : a * a = b * b) : a.even = b.even := by
  have h' : a.residue * a.residue = b.residue * b.residue := by
    rw [← residue_mul, ← residue_mul, h]
  rcases mul_self_eq_mul_self_iff.1 h' with h' | h'
  · rw [residue_inj.1 h']
  · rw [← residue_neg] at h'
    rw [residue_inj.1 h', even_neg]

/-- What `sqrt?` finds is a root. -/
theorem mul_self_of_sqrt? {a r : Element} (h : sqrt? a = some r) : r * r = a := by
  rw [sqrt?, Option.ite_none_right_eq_some, Option.some.injEq] at h
  obtain ⟨hr, hsign⟩ := h
  rw [← hsign]
  exact (even_mul_even _).trans hr

/-- The even root of a square is found. -/
theorem sqrt?_mul_self (a : Element) : sqrt? (a * a) = some a.even := by
  have hexp : (prime + 3) / 8 < 2 ^ 256 := by decide
  have hroot : ∀ c, c = pow (a * a) ((prime + 3) / 8) →
      (if c * c = a * a then c else c * rootOfMinusOne) *
        (if c * c = a * a then c else c * rootOfMinusOne) = a * a := by
    rintro c hc
    have hres : c.residue = (a.residue * a.residue) ^ ((prime + 3) / 8) := by
      rw [hc, residue_pow _ hexp, residue_mul]
    split
    · next h => exact h
    · next h =>
      rw [← residue_inj, residue_mul, hres, residue_mul] at h
      rw [← residue_inj, residue_mul, residue_mul, residue_mul, mul_mul_mul_comm,
        residue_rootOfMinusOne, hres, (power_mul_self a.residue).resolve_left h]
      ring
  rw [sqrt?, if_pos (hroot _ rfl)]
  exact congrArg some (even_eq_of_mul_self (hroot _ rfl))

end Element

end TunnelMesh.Curve
