import Mathlib
import TunnelMesh.Proofs.Curve.Denotation
import TunnelMesh.Proofs.Text.Octets

/-!
# Points as bytes

What a point in projective coordinates is written as depends on the point that it denotes only
(`Denotes.encode`). A written point is read back as that point (`decode?_encode`), so no two points
are written alike (`Affine.octets_code_inj`), and from the coordinate u alone the point with an even
x is read, which is the point or its inverse (`ofU?_u`). Nothing is read but points of the curve
(`exists_denotes_of_ofY?`).
-/

namespace TunnelMesh.Curve

/-- The denominator of x² as a quotient in y is never 0, since −1 is a square and the coefficient is
none. -/
theorem coefficient_mul_add_one_ne_zero (y : Residue) : coefficientResidue * (y * y) + 1 ≠ 0 := by
  intro h
  obtain ⟨i, hi⟩ := isSquare_neg_one_residue
  have hy : y ≠ 0 := by
    rintro rfl
    simp at h
  refine not_isSquare_coefficientResidue ⟨i / y, ?_⟩
  rw [div_mul_div_comm, ← hi, eq_div_iff (mul_ne_zero hy hy)]
  linear_combination h

/-! ## Points with an even x -/

namespace Affine

variable (P : Affine)

/-- Of a point and its inverse, the one with an even x. -/
def even : Affine :=
  if P.x.val % 2 = 0 then P else -P

/-- The number whose lowest 255 bits are y and whose highest bit is the last bit of x. -/
def code : Nat :=
  P.y.val + P.x.val % 2 * Point.signBit

/-- The element that is the first coordinate. -/
def elementX : Element :=
  Element.ofNat P.x.val

/-- The element that is the second coordinate. -/
def elementY : Element :=
  Element.ofNat P.y.val

@[simp] theorem residue_elementX : P.elementX.residue = P.x := by
  rw [elementX, Element.residue_ofNat, ZMod.natCast_val, ZMod.cast_id]

@[simp] theorem residue_elementY : P.elementY.residue = P.y := by
  rw [elementY, Element.residue_ofNat, ZMod.natCast_val, ZMod.cast_id]

theorem val_elementX : P.elementX.val = P.x.val := by
  rw [← Element.val_residue, residue_elementX]

/-- The second coordinate leaves the bit of the sign free. -/
theorem y_val_lt : P.y.val < Point.signBit :=
  lt_of_lt_of_le (ZMod.val_lt P.y) (by decide)

/-- The lowest 255 bits of the code are y. -/
theorem code_mod : P.code % Point.signBit = P.y.val := by
  rw [code, Nat.add_mul_mod_self_right, Nat.mod_eq_of_lt P.y_val_lt]

/-- The highest bit of the code is the last bit of x. -/
theorem code_div : P.code / Point.signBit = P.x.val % 2 := by
  rw [code, Nat.add_mul_div_right _ _ (by decide), Nat.div_eq_of_lt P.y_val_lt, zero_add]

/-- The number that encodes a point has 32 bytes. -/
theorem code_lt : P.code < 256 ^ 32 := by
  have hbit : 2 * Point.signBit = 256 ^ 32 := by decide
  have := P.y_val_lt
  have := Nat.mod_lt P.x.val two_pos
  rw [code]
  interval_cases P.x.val % 2 <;> omega

/-- The code is below the sign bit just where x is even. -/
theorem code_lt_signBit : P.code < Point.signBit ↔ P.x.val % 2 = 0 := by
  rw [← code_div, Nat.div_eq_zero_iff_lt (by decide)]

/-- The even one of a point and its inverse has an even x. -/
theorem even_x : P.even.x.val % 2 = 0 := by
  have h := P.elementX.even_val
  rw [Element.even, val_elementX] at h
  rw [even]
  split
  · assumption
  · rw [if_neg (by assumption), ← Element.val_residue, Element.residue_neg, residue_elementX] at h
    exact h

/-- The choice of a sign does not change the second coordinate. -/
theorem even_y : P.even.y = P.y := by
  rw [even]
  split <;> rfl

/-- The even one of two elements is the first coordinate of the even one of two points. -/
theorem residue_even_elementX : P.elementX.even.residue = P.even.x := by
  rw [Element.even, even, val_elementX]
  split <;> simp

/-- A point with an even x is written as its y. -/
theorem code_even : P.even.code = P.code % Point.signBit := by
  rw [code_mod, code, even_x, even_y, zero_mul, add_zero]

/-- The point of second coordinate 1 is the neutral one. -/
theorem y_ne_one (hP : P ≠ 0) : P.y ≠ 1 := by
  intro hy
  have hon := P.onCurve
  rw [OnCurve, hy] at hon
  have hzero : P.x ^ 2 * (1 + coefficientResidue) = 0 := by linear_combination -hon
  rcases mul_eq_zero.1 hzero with hx | hd
  · exact hP (Affine.ext (by simpa using hx) hy)
  · exact absurd (by linear_combination hd) (coefficient_mul_add_one_ne_zero 1)

end Affine

/-! ## Writing and reading -/

namespace Point

variable {p : Point} {P : Affine}

/-- The code of a point in projective coordinates is that of the point. -/
theorem Denotes.code (hp : p.Denotes P) : p.code = P.code := by
  have hx : (p.x * Element.inv p.z).residue = P.x := by
    rw [Element.residue_mul, Element.residue_inv, hp.x_eq, mul_inv_cancel_right₀ hp.z_ne_zero]
  have hy : (p.y * Element.inv p.z).residue = P.y := by
    rw [Element.residue_mul, Element.residue_inv, hp.y_eq, mul_inv_cancel_right₀ hp.z_ne_zero]
  rw [Point.code, Affine.code, ← hx, ← hy, Element.val_residue, Element.val_residue]

/-- What a point is encoded as is told by the element that it stands for. -/
theorem Denotes.encode (hp : p.Denotes P) : p.encode = LittleEndian.octets 32 P.code := by
  rw [Point.encode, hp.code]

/-- The two points with the second coordinate of a point are read with either sign. -/
theorem ofY?_elementY (P : Affine) (odd : Bool) :
    ofY? P.elementY odd =
      some ⟨if odd then -P.elementX.even else P.elementX.even, P.elementY, 1⟩ := by
  have hsquare : (P.elementY * P.elementY - 1) *
      Element.inv (coefficient * (P.elementY * P.elementY) + 1) = P.elementX * P.elementX := by
    have hon := P.onCurve
    rw [OnCurve] at hon
    rw [← Element.residue_inj]
    simp only [Element.residue_mul, Element.residue_sub, Element.residue_one,
      Element.residue_inv, Element.residue_add, residue_coefficient, Affine.residue_elementX,
      Affine.residue_elementY]
    rw [mul_inv_eq_iff_eq_mul₀ (coefficient_mul_add_one_ne_zero P.y)]
    linear_combination hon
  rw [ofY?, hsquare, Element.sqrt?_mul_self, Option.map_some]

/-- The point with an even x is read from the second coordinate. -/
theorem ofY?_even (P : Affine) : ∃ p, ofY? P.elementY false = some p ∧ p.Denotes P.even := by
  refine ⟨_, ofY?_elementY P false, ?_, ?_, ?_⟩
  · simp
  · simp [Affine.residue_even_elementX]
  · simp [Affine.even_y]

/-- What is read from a second coordinate is a point of the curve with that coordinate. -/
theorem exists_denotes_of_ofY? {y : Element} {odd : Bool} (h : ofY? y odd = some p) :
    ∃ P : Affine, p.Denotes P ∧ P.y = y.residue := by
  rw [ofY?, Option.map_eq_some_iff] at h
  obtain ⟨x, hx, rfl⟩ := h
  have hsquare := congrArg Element.residue (Element.mul_self_of_sqrt? hx)
  simp only [Element.residue_mul, Element.residue_sub, Element.residue_one, Element.residue_inv,
    Element.residue_add, residue_coefficient] at hsquare
  rw [eq_mul_inv_iff_mul_eq₀ (coefficient_mul_add_one_ne_zero _)] at hsquare
  have hsign : (if odd then -x else x).residue * (if odd then -x else x).residue =
      x.residue * x.residue := by
    split <;> simp
  refine ⟨⟨(if odd then -x else x).residue, y.residue, ?_⟩, ⟨?_, ?_, ?_⟩, rfl⟩
  · rw [OnCurve]
    linear_combination -hsquare - (1 + coefficientResidue * y.residue ^ 2) * hsign
  · simp
  · simp
  · simp

/-- A written point is read back. -/
theorem decode?_encode (P : Affine) :
    ∃ p, decode? (LittleEndian.octets 32 P.code) = some p ∧ p.Denotes P := by
  have hvalue : LittleEndian.value (LittleEndian.octets 32 P.code).val = P.code :=
    LittleEndian.value_bytes_of_lt P.code_lt
  have hread : decode? (LittleEndian.octets 32 P.code) = ofY? P.elementY (P.x.val % 2 == 1) := by
    rw [decode?, hvalue, P.code_mod, P.code_div, Nat.mod_mod, Affine.elementY]
  refine ⟨_, hread.trans (ofY?_elementY P _), ?_, ?_, ?_⟩
  · simp
  · have hx := P.residue_even_elementX
    rw [Affine.even] at hx
    rcases Nat.mod_two_eq_zero_or_one P.x.val with h | h <;> simp [h, hx]
  · simp

/-- The coordinate u of a point other than the neutral one. -/
theorem Denotes.u (hp : p.Denotes P) : p.u.residue = (1 + P.y) / (1 - P.y) := by
  have hsum : p.z.residue + p.y.residue = p.z.residue * (1 + P.y) := by rw [hp.y_eq]; ring
  have hdiff : p.z.residue - p.y.residue = p.z.residue * (1 - P.y) := by rw [hp.y_eq]; ring
  rw [Point.u, Element.residue_mul, Element.residue_inv, Element.residue_add, Element.residue_sub,
    hsum, hdiff, ← div_eq_mul_inv, mul_div_mul_left _ _ hp.z_ne_zero]

/-- From the coordinate u of a point, the point with an even x is read. -/
theorem ofU?_u (hp : p.Denotes P) (hP : P ≠ 0) :
    ∃ q, ofU? (LittleEndian.octets 32 p.u.val) = some q ∧ q.Denotes P.even := by
  have hne : 1 - P.y ≠ 0 := sub_ne_zero.2 (P.y_ne_one hP).symm
  have hlt : p.u.val < signBit := lt_of_lt_of_le p.u.isLt (by decide)
  have hvalue : LittleEndian.value (LittleEndian.octets 32 p.u.val).val % signBit = p.u.val := by
    have hfit : p.u.val < 256 ^ 32 := lt_of_lt_of_le hlt (by decide)
    exact (congrArg (· % signBit) (LittleEndian.value_bytes_of_lt hfit)).trans
      (Nat.mod_eq_of_lt hlt)
  have hu : Element.ofNat p.u.val = p.u := Fin.ext (Nat.mod_eq_of_lt p.u.isLt)
  have hplus : p.u.residue + 1 = 2 / (1 - P.y) := by
    rw [hp.u, div_add_one hne]; ring
  have hminus : p.u.residue - 1 = 2 * P.y / (1 - P.y) := by
    rw [hp.u, div_sub_one hne]; ring
  have hplus₀ : p.u.residue + 1 ≠ 0 := hplus ▸ div_ne_zero two_residue_ne_zero hne
  have hy : (p.u - 1) * Element.inv (p.u + 1) = P.elementY := by
    rw [← Element.residue_inj]
    simp only [Element.residue_mul, Element.residue_sub, Element.residue_one,
      Element.residue_inv, Element.residue_add, Affine.residue_elementY]
    rw [mul_inv_eq_iff_eq_mul₀ hplus₀, hplus, hminus]
    ring
  have hcond : p.u + 1 ≠ 0 := by
    rw [Ne, ← Element.residue_eq_zero, Element.residue_add, Element.residue_one]
    exact hplus₀
  obtain ⟨q, hq, hden⟩ := ofY?_even P
  refine ⟨q, ?_, hden⟩
  rw [ofU?, hvalue, hu]
  exact (if_neg hcond).trans (hy ▸ hq)

end Point

/-- No two points are written alike. -/
theorem Affine.octets_code_inj {P Q : Affine} :
    LittleEndian.octets 32 P.code = LittleEndian.octets 32 Q.code ↔ P = Q := by
  refine ⟨fun h => ?_, fun h => h ▸ rfl⟩
  obtain ⟨p, hp, hP⟩ := Point.decode?_encode P
  obtain ⟨q, hq, hQ⟩ := Point.decode?_encode Q
  rw [h, hq, Option.some.injEq] at hp
  exact hP.unique (hp ▸ hQ)

end TunnelMesh.Curve
