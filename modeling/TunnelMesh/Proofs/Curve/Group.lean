import Mathlib
import TunnelMesh.Curve.Point
import TunnelMesh.Proofs.Curve.Residue

/-!
# The group of the curve

The points (x, y) with −x² + y² = 1 + d·x²·y² form a commutative group under the addition of the
curve (`Affine.instAddCommGroup`). The addition has no exceptional cases: its denominators vanish
nowhere, because −1 is a square and `d` is none (`OnCurve.denominators_ne_zero`). So closure and
associativity are identities between polynomials that follow from the equations of the points.
-/

namespace TunnelMesh.Curve

section
variable {F : Type*} [Field F] {d x₁ y₁ x₂ y₂ x₃ y₃ : F}

/-- The equation of the curve. -/
def OnCurve (d x y : F) : Prop :=
  -x ^ 2 + y ^ 2 = 1 + d * x ^ 2 * y ^ 2

/-! ## The addition formulas -/

/-- If `d·x₁·x₂·y₁·y₂` were a root of 1, then `d` would be a square. The two cases of the proof are
those in which `i·x₂ + y₂` and `i·x₂ - y₂` are not 0. -/
theorem OnCurve.product_mul_self_ne_one (h₁ : OnCurve d x₁ y₁) (h₂ : OnCurve d x₂ y₂)
    (htwo : (2 : F) ≠ 0) (hroot : IsSquare (-1 : F)) (hd : ¬ IsSquare d) :
    d * x₁ * x₂ * y₁ * y₂ * (d * x₁ * x₂ * y₁ * y₂) ≠ 1 := by
  intro ht
  obtain ⟨i, hi⟩ := hroot
  rw [OnCurve] at h₁ h₂
  have hx₁ : x₁ ≠ 0 := by rintro rfl; simp at ht
  have hy₁ : y₁ ≠ 0 := by rintro rfl; simp at ht
  have hx₂ : x₂ ≠ 0 := by rintro rfl; simp at ht
  have hsquare : ∀ s, s * s = 1 → i * x₂ + s * y₂ ≠ 0 → IsSquare d := by
    intro s hs hne
    refine ⟨(i * x₁ + s * (d * x₁ * x₂ * y₁ * y₂) * y₁) / (x₁ * y₁ * (i * x₂ + s * y₂)), ?_⟩
    have hden : x₁ * y₁ * (i * x₂ + s * y₂) ≠ 0 := mul_ne_zero (mul_ne_zero hx₁ hy₁) hne
    rw [div_mul_div_comm, eq_div_iff (mul_ne_zero hden hden)]
    linear_combination (x₁ ^ 2 - d * x₁ ^ 2 * y₁ ^ 2 * x₂ ^ 2) * hi +
      (d * x₁ ^ 2 * y₁ ^ 2 * y₂ ^ 2 - (d * x₁ * x₂ * y₁ * y₂) ^ 2 * y₁ ^ 2) * hs +
      d * x₁ ^ 2 * y₁ ^ 2 * h₂ - h₁ + (1 - y₁ ^ 2) * ht
  by_cases hplus : i * x₂ + 1 * y₂ = 0
  · by_cases hminus : i * x₂ + -1 * y₂ = 0
    · have hzero : 2 * (i * x₂) = 0 := by linear_combination hplus + hminus
      have hi₀ : i ≠ 0 := by rintro rfl; simp at hi
      exact mul_ne_zero htwo (mul_ne_zero hi₀ hx₂) hzero
    · exact hd (hsquare (-1) (by ring) hminus)
  · exact hd (hsquare 1 (by ring) hplus)

/-- The denominators of the addition are never 0. -/
theorem OnCurve.denominators_ne_zero (h₁ : OnCurve d x₁ y₁) (h₂ : OnCurve d x₂ y₂)
    (htwo : (2 : F) ≠ 0) (hroot : IsSquare (-1 : F)) (hd : ¬ IsSquare d) :
    1 + d * x₁ * x₂ * y₁ * y₂ ≠ 0 ∧ 1 - d * x₁ * x₂ * y₁ * y₂ ≠ 0 := by
  have h := h₁.product_mul_self_ne_one h₂ htwo hroot hd
  refine ⟨fun h0 => h ?_, fun h0 => h ?_⟩
  · linear_combination (d * x₁ * x₂ * y₁ * y₂ - 1) * h0
  · linear_combination (-(d * x₁ * x₂ * y₁ * y₂) - 1) * h0

/-- The first coordinate of a sum. -/
def sumX (d x₁ y₁ x₂ y₂ : F) : F :=
  (x₁ * y₂ + y₁ * x₂) / (1 + d * x₁ * x₂ * y₁ * y₂)

/-- The second coordinate of a sum. -/
def sumY (d x₁ y₁ x₂ y₂ : F) : F :=
  (y₁ * y₂ + x₁ * x₂) / (1 - d * x₁ * x₂ * y₁ * y₂)

/-- The equation of the curve for a sum, multiplied by the denominators. -/
theorem OnCurve.sum_numerators (h₁ : OnCurve d x₁ y₁) (h₂ : OnCurve d x₂ y₂) :
    -(x₁ * y₂ + y₁ * x₂) ^ 2 * (1 - d * x₁ * x₂ * y₁ * y₂) ^ 2 +
        (y₁ * y₂ + x₁ * x₂) ^ 2 * (1 + d * x₁ * x₂ * y₁ * y₂) ^ 2 =
      ((1 + d * x₁ * x₂ * y₁ * y₂) * (1 - d * x₁ * x₂ * y₁ * y₂)) ^ 2 +
        d * (x₁ * y₂ + y₁ * x₂) ^ 2 * (y₁ * y₂ + x₁ * x₂) ^ 2 := by
  rw [OnCurve] at *
  grind

/-- A sum is on the curve, where its denominators are not 0. -/
theorem OnCurve.sum (h₁ : OnCurve d x₁ y₁) (h₂ : OnCurve d x₂ y₂)
    (hplus : 1 + d * x₁ * x₂ * y₁ * y₂ ≠ 0) (hminus : 1 - d * x₁ * x₂ * y₁ * y₂ ≠ 0) :
    OnCurve d (sumX d x₁ y₁ x₂ y₂) (sumY d x₁ y₁ x₂ y₂) := by
  have hx : sumX d x₁ y₁ x₂ y₂ * (1 + d * x₁ * x₂ * y₁ * y₂) = x₁ * y₂ + y₁ * x₂ :=
    div_mul_cancel₀ _ hplus
  have hy : sumY d x₁ y₁ x₂ y₂ * (1 - d * x₁ * x₂ * y₁ * y₂) = y₁ * y₂ + x₁ * x₂ :=
    div_mul_cancel₀ _ hminus
  have hden := pow_ne_zero 2 (mul_ne_zero hplus hminus)
  rw [OnCurve]
  refine mul_right_cancel₀ hden ?_
  have hnum := h₁.sum_numerators h₂
  rw [← hx, ← hy] at hnum
  linear_combination hnum

/-- The numerators of the first coordinates of two threefold sums, brought to one denominator. -/
theorem OnCurve.assoc_numerators_x (h₁ : OnCurve d x₁ y₁) (h₂ : OnCurve d x₂ y₂)
    (h₃ : OnCurve d x₃ y₃) :
    ((x₁ * y₂ + y₁ * x₂) * (1 - d * x₁ * x₂ * y₁ * y₂) * y₃ +
        (y₁ * y₂ + x₁ * x₂) * (1 + d * x₁ * x₂ * y₁ * y₂) * x₃) *
      ((1 + d * x₂ * x₃ * y₂ * y₃) * (1 - d * x₂ * x₃ * y₂ * y₃) +
        d * x₁ * (x₂ * y₃ + y₂ * x₃) * y₁ * (y₂ * y₃ + x₂ * x₃)) =
    (x₁ * (y₂ * y₃ + x₂ * x₃) * (1 + d * x₂ * x₃ * y₂ * y₃) +
        y₁ * (x₂ * y₃ + y₂ * x₃) * (1 - d * x₂ * x₃ * y₂ * y₃)) *
      ((1 + d * x₁ * x₂ * y₁ * y₂) * (1 - d * x₁ * x₂ * y₁ * y₂) +
        d * (x₁ * y₂ + y₁ * x₂) * x₃ * (y₁ * y₂ + x₁ * x₂) * y₃) := by
  rw [OnCurve] at *
  grind

/-- The numerators of the second coordinates of two threefold sums, brought to one denominator. -/
theorem OnCurve.assoc_numerators_y (h₁ : OnCurve d x₁ y₁) (h₂ : OnCurve d x₂ y₂)
    (h₃ : OnCurve d x₃ y₃) :
    ((y₁ * y₂ + x₁ * x₂) * (1 + d * x₁ * x₂ * y₁ * y₂) * y₃ +
        (x₁ * y₂ + y₁ * x₂) * (1 - d * x₁ * x₂ * y₁ * y₂) * x₃) *
      ((1 + d * x₂ * x₃ * y₂ * y₃) * (1 - d * x₂ * x₃ * y₂ * y₃) -
        d * x₁ * (x₂ * y₃ + y₂ * x₃) * y₁ * (y₂ * y₃ + x₂ * x₃)) =
    (y₁ * (y₂ * y₃ + x₂ * x₃) * (1 + d * x₂ * x₃ * y₂ * y₃) +
        x₁ * (x₂ * y₃ + y₂ * x₃) * (1 - d * x₂ * x₃ * y₂ * y₃)) *
      ((1 + d * x₁ * x₂ * y₁ * y₂) * (1 - d * x₁ * x₂ * y₁ * y₂) -
        d * (x₁ * y₂ + y₁ * x₂) * x₃ * (y₁ * y₂ + x₁ * x₂) * y₃) := by
  rw [OnCurve] at *
  grind

end

/-! ## The points -/

/-- The coefficient of the curve as a residue. -/
def coefficientResidue : Residue :=
  coefficient.residue

@[simp] theorem residue_coefficient : coefficient.residue = coefficientResidue := rfl

theorem two_residue_ne_zero : (2 : Residue) ≠ 0 := by decide

/-- Minus one is a square, since the prime is one more than a multiple of four. -/
theorem isSquare_neg_one_residue : IsSquare (-1 : Residue) :=
  ⟨_, Element.residue_rootOfMinusOne.symm⟩

/-- The coefficient is no square, since its power by half the order of the units is −1. -/
theorem not_isSquare_coefficientResidue : ¬ IsSquare coefficientResidue := by
  have hpow : Element.pow coefficient (prime / 2) = -1 := by decide +kernel
  have hne : coefficientResidue ≠ 0 := by
    rw [coefficientResidue, Ne, Element.residue_eq_zero]; decide
  rw [ZMod.euler_criterion prime hne, coefficientResidue, ← Element.residue_pow _ (by decide),
    hpow, Element.residue_neg, Element.residue_one, neg_eq_iff_add_eq_zero]
  exact two_residue_ne_zero ∘ (one_add_one_eq_two.symm.trans ·)

/-- A point of the curve. -/
@[ext] structure Affine where
  x : Residue
  y : Residue
  onCurve : OnCurve coefficientResidue x y

namespace Affine

variable (P Q R : Affine)

/-- Both denominators of a sum are there for any two points of the curve. -/
theorem denominators_ne_zero :
    1 + coefficientResidue * P.x * Q.x * P.y * Q.y ≠ 0 ∧
      1 - coefficientResidue * P.x * Q.x * P.y * Q.y ≠ 0 :=
  P.onCurve.denominators_ne_zero Q.onCurve two_residue_ne_zero isSquare_neg_one_residue
    not_isSquare_coefficientResidue

instance : Zero Affine :=
  ⟨0, 1, by rw [OnCurve]; ring⟩

instance : Neg Affine :=
  ⟨fun P => ⟨-P.x, P.y, by have := P.onCurve; rw [OnCurve] at *; linear_combination this⟩⟩

instance : Add Affine :=
  ⟨fun P Q => ⟨sumX coefficientResidue P.x P.y Q.x Q.y, sumY coefficientResidue P.x P.y Q.x Q.y,
    P.onCurve.sum Q.onCurve (P.denominators_ne_zero Q).1 (P.denominators_ne_zero Q).2⟩⟩

@[simp] theorem zero_x : (0 : Affine).x = 0 := rfl
@[simp] theorem zero_y : (0 : Affine).y = 1 := rfl
@[simp] theorem neg_x : (-P).x = -P.x := rfl
@[simp] theorem neg_y : (-P).y = P.y := rfl

/-- What the first coordinate of a sum is, without a division. -/
theorem add_x : (P + Q).x * (1 + coefficientResidue * P.x * Q.x * P.y * Q.y) =
    P.x * Q.y + P.y * Q.x :=
  div_mul_cancel₀ _ (P.denominators_ne_zero Q).1

/-- What the second coordinate of a sum is, without a division. -/
theorem add_y : (P + Q).y * (1 - coefficientResidue * P.x * Q.x * P.y * Q.y) =
    P.y * Q.y + P.x * Q.x :=
  div_mul_cancel₀ _ (P.denominators_ne_zero Q).2

/-- A point is a sum if its coordinates are those of the sum, without a division. -/
theorem eq_add (hx : R.x * (1 + coefficientResidue * P.x * Q.x * P.y * Q.y) =
      P.x * Q.y + P.y * Q.x)
    (hy : R.y * (1 - coefficientResidue * P.x * Q.x * P.y * Q.y) = P.y * Q.y + P.x * Q.x) :
    R = P + Q := by
  obtain ⟨hplus, hminus⟩ := P.denominators_ne_zero Q
  ext
  · exact mul_right_cancel₀ hplus (hx.trans (P.add_x Q).symm)
  · exact mul_right_cancel₀ hminus (hy.trans (P.add_y Q).symm)

/-- A sum does not depend on the order of its points. -/
protected theorem add_comm : P + Q = Q + P := by
  refine eq_add Q P (P + Q) ?_ ?_
  · linear_combination P.add_x Q
  · linear_combination P.add_y Q

protected theorem zero_add : 0 + P = P := by
  refine (eq_add 0 P P ?_ ?_).symm <;> simp

/-- A point and its negative add up to the neutral element. -/
protected theorem neg_add_cancel : -P + P = 0 := by
  refine (eq_add (-P) P 0 ?_ ?_).symm
  · simp; ring
  · have := P.onCurve
    rw [OnCurve] at this
    simp
    linear_combination -this

/-- Both sides are brought to the denominators of the inner sums, where they are those of
`assoc_numerators_x` and `assoc_numerators_y`. -/
protected theorem add_assoc : P + Q + R = P + (Q + R) := by
  set D := coefficientResidue with hD
  obtain ⟨hA, hB⟩ := P.denominators_ne_zero Q
  obtain ⟨hC, hE⟩ := Q.denominators_ne_zero R
  obtain ⟨hplus, hminus⟩ := (P + Q).denominators_ne_zero R
  have hden := mul_ne_zero (mul_ne_zero hA hB) (mul_ne_zero hC hE)
  have hSx := P.add_x Q
  have hSy := P.add_y Q
  have hTx := Q.add_x R
  have hTy := Q.add_y R
  have hnx := P.onCurve.assoc_numerators_x Q.onCurve R.onCurve
  have hny := P.onCurve.assoc_numerators_y Q.onCurve R.onCurve
  rw [← hD] at *
  set A := 1 + D * P.x * Q.x * P.y * Q.y
  set B := 1 - D * P.x * Q.x * P.y * Q.y
  set C := 1 + D * Q.x * R.x * Q.y * R.y
  set E := 1 - D * Q.x * R.x * Q.y * R.y
  rw [← hSx, ← hSy, ← hTx, ← hTy] at hnx hny
  refine eq_add P (Q + R) (P + Q + R) ?_ ?_
  · refine mul_right_cancel₀ (mul_ne_zero hplus hden) ?_
    linear_combination
      (A * B) * ((1 + D * P.x * (Q + R).x * P.y * (Q + R).y) * (C * E)) * (P + Q).add_x R + hnx
  · refine mul_right_cancel₀ (mul_ne_zero hminus hden) ?_
    linear_combination
      (A * B) * ((1 - D * P.x * (Q + R).x * P.y * (Q + R).y) * (C * E)) * (P + Q).add_y R + hny

instance : AddCommGroup Affine where
  add_assoc := Affine.add_assoc
  zero_add := Affine.zero_add
  add_zero P := (Affine.add_comm P 0).trans (Affine.zero_add P)
  neg_add_cancel := Affine.neg_add_cancel
  add_comm := Affine.add_comm
  nsmul := nsmulRec
  zsmul := zsmulRec

end Affine

end TunnelMesh.Curve
