import Mathlib
import TunnelMesh.Curve.Signature
import TunnelMesh.Proofs.Curve.Group

/-!
# Points in projective coordinates

A point in projective coordinates denotes a point of the curve (`Point.Denotes`), and the runnable
operations denote those of the group: `Denotes.add`, `Denotes.neg` and, by induction on the bits of
the factor, `Denotes.times`. The base point has the order `order` (`addOrderOf_baseAffine`).
-/

namespace TunnelMesh.Curve

namespace Point

/-- The projective coordinates are those of a point of the curve. -/
structure Denotes (p : Point) (P : Affine) : Prop where
  z_ne_zero : p.z.residue ≠ 0
  x_eq : p.x.residue = P.x * p.z.residue
  y_eq : p.y.residue = P.y * p.z.residue

namespace Denotes

variable {p q : Point} {P Q : Affine}

theorem zero : Point.zero.Denotes 0 :=
  ⟨by simp [Point.zero], by simp [Point.zero], by simp [Point.zero]⟩

/-- Projective coordinates denote one point only. -/
theorem unique (hP : p.Denotes P) (hQ : p.Denotes Q) : P = Q := by
  ext
  · exact mul_right_cancel₀ hP.z_ne_zero (hP.x_eq.symm.trans hQ.x_eq)
  · exact mul_right_cancel₀ hP.z_ne_zero (hP.y_eq.symm.trans hQ.y_eq)

theorem neg (hp : p.Denotes P) : p.neg.Denotes (-P) :=
  ⟨hp.z_ne_zero, by simp [Point.neg, hp.x_eq], hp.y_eq⟩

/-- The addition of the curve in projective coordinates. The third coordinate of the sum is the
product of the denominators, times a power of the two third coordinates. -/
theorem add (hp : p.Denotes P) (hq : q.Denotes Q) : (p.add q).Denotes (P + Q) := by
  obtain ⟨hplus, hminus⟩ := P.denominators_ne_zero Q
  have hx := P.add_x Q
  have hy := P.add_y Q
  obtain ⟨hpz, hpx, hpy⟩ := hp
  obtain ⟨hqz, hqx, hqy⟩ := hq
  have hz : (p.add q).z.residue = (p.z.residue * q.z.residue) ^ 4 *
      (1 - coefficientResidue * P.x * Q.x * P.y * Q.y) *
      (1 + coefficientResidue * P.x * Q.x * P.y * Q.y) := by
    simp only [Point.add, Element.residue_add, Element.residue_sub, Element.residue_mul, hpx, hpy,
      hqx, hqy, residue_coefficient]
    ring
  refine ⟨?_, ?_, ?_⟩
  · rw [hz]
    exact mul_ne_zero (mul_ne_zero (pow_ne_zero 4 (mul_ne_zero hpz hqz)) hminus) hplus
  · rw [hz]
    simp only [Point.add, Element.residue_add, Element.residue_sub, Element.residue_mul, hpx, hpy,
      hqx, hqy, residue_coefficient]
    linear_combination -(p.z.residue * q.z.residue) ^ 4 *
      (1 - coefficientResidue * P.x * Q.x * P.y * Q.y) * hx
  · rw [hz]
    simp only [Point.add, Element.residue_add, Element.residue_mul, hpx, hpy, hqx, hqy,
      residue_coefficient]
    linear_combination -(p.z.residue * q.z.residue) ^ 4 *
      (1 + coefficientResidue * P.x * Q.x * P.y * Q.y) * hy

/-- A multiple by bits stands for the multiple. -/
theorem timesBits (hp : p.Denotes P) {bits n : Nat} (hn : n < 2 ^ bits) :
    (p.timesBits bits n).Denotes (n • P) := by
  induction bits generalizing n with
  | zero =>
    obtain rfl : n = 0 := by simpa using hn
    simpa [Point.timesBits] using Denotes.zero
  | succ bits ih =>
    have hhalf := ih (n := n / 2) (by rw [pow_succ] at hn; omega)
    have hsplit : n • P = (n / 2) • P + (n / 2) • P + (n % 2) • P := by
      rw [← add_nsmul, ← add_nsmul]
      congr 1
      omega
    rw [Point.timesBits, hsplit]
    rcases Nat.mod_two_eq_zero_or_one n with h | h
    · simpa [h] using hhalf.add hhalf
    · simpa [h] using (hhalf.add hhalf).add hp

/-- A multiple denotes the multiple. -/
theorem times (hp : p.Denotes P) {n : Nat} (hn : n < 2 ^ 256) : (p.times n).Denotes (n • P) :=
  hp.timesBits hn

end Denotes

end Point

/-! ## The base point -/

/-- The base point of the curve. -/
def baseAffine : Affine where
  x := Point.base.x.residue
  y := Point.base.y.residue
  onCurve := by
    have h : -(Point.base.x * Point.base.x) + Point.base.y * Point.base.y =
        1 + coefficient * (Point.base.x * Point.base.x) * (Point.base.y * Point.base.y) := by
      decide +kernel
    have h' := congrArg Element.residue h
    simp only [Element.residue_add, Element.residue_neg, Element.residue_mul, Element.residue_one]
      at h'
    rw [OnCurve, pow_two, pow_two]
    exact h'

/-- The base point stands for itself. -/
theorem denotes_base : Point.base.Denotes baseAffine := by
  have hz : Point.base.z.residue = 1 := Element.residue_one
  exact ⟨by rw [hz]; exact one_ne_zero, by rw [hz, mul_one]; rfl, by rw [hz, mul_one]; rfl⟩

theorem order_lt : order < 2 ^ 256 := by decide

/-- The `order`-fold of the base point, as the kernel computes it. -/
theorem order_nsmul_baseAffine : order • baseAffine = 0 := by
  obtain ⟨hz, hx, hy⟩ := denotes_base.times order_lt
  have hx₀ : (Point.base.times order).x = 0 := by decide +kernel
  have hyz : (Point.base.times order).y = (Point.base.times order).z := by decide +kernel
  rw [hx₀, Element.residue_zero] at hx
  rw [hyz] at hy
  ext
  · exact (mul_eq_zero.1 hx.symm).resolve_right hz
  · exact mul_right_cancel₀ hz (by rw [← hy, Affine.zero_y, one_mul])

/-- The base point is not the neutral element. -/
theorem baseAffine_ne_zero : baseAffine ≠ 0 := by
  have hx : Point.base.x ≠ 0 := by decide
  exact fun h => hx (Element.residue_eq_zero.1 (congrArg Affine.x h))

/-- The base point has the order `order`, since that number is prime. -/
theorem addOrderOf_baseAffine : addOrderOf baseAffine = order :=
  have : Fact order.Prime := ⟨prime_order⟩
  addOrderOf_eq_prime order_nsmul_baseAffine baseAffine_ne_zero

/-- Multiples of the base point depend on the factor modulo the order only. -/
theorem nsmul_baseAffine_eq_iff {m n : Nat} :
    m • baseAffine = n • baseAffine ↔ m % order = n % order := by
  rw [nsmul_eq_nsmul_iff_modEq, addOrderOf_baseAffine, Nat.ModEq]

end TunnelMesh.Curve
