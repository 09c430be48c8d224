import Mathlib
import TunnelMesh.Curve.Signature
import TunnelMesh.Proofs.Curve.Encoding

/-!
# Which signatures are accepted

The bytes of a public key name one point at most (`NamesPoint.unique`), and bytes that name the same
point denote the same coordinate u (`NamesPoint.coordinate_eq`). A signature (R, s) is accepted
under a key that names P just when s is below the order and R is what s·B − h·P is written as, where
the challenge h is a hash of R, P and the message (`verify_eq_true`). Since the points are written
differently and multiples of the base point tell the factor below the order, no other s goes with R
(`response_unique`).
-/

namespace TunnelMesh.Curve

/-! ## The points of public keys -/

/-- The coordinate u that the bytes of a public key denote. The highest bit does not count, and the
number is taken modulo the prime. -/
def coordinate (bs : Octets 32) : Element :=
  Element.ofNat (LittleEndian.value bs.val % Point.signBit)

/-- The bytes of a public key name the point that is read from them. -/
def NamesPoint (bs : Octets 32) (P : Affine) : Prop :=
  ∃ p, Point.ofU? bs = some p ∧ p.Denotes P

theorem Point.ofU?_eq (bs : Octets 32) : ofU? bs = if coordinate bs + 1 = 0 then none else
    ofY? ((coordinate bs - 1) * Element.inv (coordinate bs + 1)) false := rfl

/-- The coordinate decides which point is read. -/
theorem Point.ofU?_congr {bs bs' : Octets 32} (h : coordinate bs = coordinate bs') :
    ofU? bs = ofU? bs' := by
  rw [ofU?_eq, ofU?_eq, h]

/-- Whatever is read from the bytes of a public key is a point of the curve. -/
theorem exists_namesPoint {bs : Octets 32} {p : Point} (h : Point.ofU? bs = some p) :
    ∃ P, NamesPoint bs P := by
  have hread := h
  rw [Point.ofU?_eq, Option.ite_none_left_eq_some] at hread
  obtain ⟨P, hP, -⟩ := Point.exists_denotes_of_ofY? hread.2
  exact ⟨P, p, h, hP⟩

namespace NamesPoint

variable {bs bs' : Octets 32} {P Q : Affine}

/-- The point that is read of a public key stands for the one that the key names. -/
theorem denotes {p : Point} (h : NamesPoint bs P) (hp : Point.ofU? bs = some p) : p.Denotes P := by
  obtain ⟨q, hq, hden⟩ := h
  rw [hp, Option.some.injEq] at hq
  exact hq ▸ hden

/-- A public key names one point at most. -/
theorem unique (hP : NamesPoint bs P) (hQ : NamesPoint bs Q) : P = Q := by
  obtain ⟨p, hp, hden⟩ := hP
  exact hden.unique (hQ.denotes hp)

/-- The coordinate of the point that is named, without a division. -/
theorem coordinate_mul (h : NamesPoint bs P) :
    (coordinate bs).residue * (1 - P.y) = 1 + P.y := by
  obtain ⟨p, hp, hden⟩ := h
  rw [Point.ofU?_eq, Option.ite_none_left_eq_some] at hp
  obtain ⟨hne, hread⟩ := hp
  obtain ⟨Q, hQ, hy⟩ := Point.exists_denotes_of_ofY? hread
  obtain rfl := hden.unique hQ
  have hne' : (coordinate bs).residue + 1 ≠ 0 := by
    rwa [← Element.residue_one, ← Element.residue_add, Ne, Element.residue_eq_zero]
  simp only [Element.residue_mul, Element.residue_sub, Element.residue_one, Element.residue_inv,
    Element.residue_add] at hy
  rw [eq_mul_inv_iff_mul_eq₀ hne'] at hy
  linear_combination -hy

/-- Bytes that name one point denote one coordinate. -/
theorem coordinate_eq (h : NamesPoint bs P) (h' : NamesPoint bs' P) :
    coordinate bs = coordinate bs' := by
  have hne : 1 - P.y ≠ 0 := by
    intro hzero
    have hu := h.coordinate_mul
    rw [hzero, mul_zero] at hu
    exact two_residue_ne_zero (by linear_combination hzero - hu)
  exact Element.residue_inj.1
    (mul_right_cancel₀ hne (h.coordinate_mul.trans h'.coordinate_mul.symm))

end NamesPoint

/-! ## The check -/

/-- A hash as a scalar is below the order. -/
theorem hashToScalar_lt (bs : List UInt8) : hashToScalar bs < order :=
  Nat.mod_lt _ (by decide)

/-- The number that the point of a public key is multiplied with in a check: a hash of the first
half of the signature, the point and the message. -/
def challenge (R : Octets 32) (P : Affine) (message : List UInt8) : Nat :=
  hashToScalar (R.val ++ (LittleEndian.octets 32 P.code).val ++ message)

variable {publicBytes : Octets 32} {message : List UInt8}

/-- What a check computes is s·B − h·P, for the point P that the public key names. -/
theorem encode_check {A : Point} {P : Affine} (hA : A.Denotes P) {s : Nat} (hs : s < order)
    (R : Octets 32) (message : List UInt8) :
    ((Point.times s Point.base).add
        (Point.times (hashToScalar (R.val ++ A.encode.val ++ message)) A.neg)).encode =
      LittleEndian.octets 32 (s • baseAffine - challenge R P message • P).code := by
  have hbase := denotes_base.times (hs.trans order_lt)
  have hkey := hA.neg.times ((hashToScalar_lt (R.val ++ A.encode.val ++ message)).trans order_lt)
  rw [smul_neg] at hkey
  rw [(hbase.add hkey).encode, ← sub_eq_add_neg, challenge, hA.encode]

/-- A signature is accepted just when its first half is what the check computes. That the first half
is read as a point follows from that. -/
theorem verify_eq_true {signature : Octets 64} :
    verify publicBytes message signature = true ↔ ∃ P, NamesPoint publicBytes P ∧
      response signature < order ∧ commitment signature = LittleEndian.octets 32
        (response signature • baseAffine -
          challenge (commitment signature) P message • P).code := by
  rw [verify]
  cases hA : Point.ofU? publicBytes with
  | none =>
    refine ⟨fun h => absurd h Bool.false_ne_true, ?_⟩
    rintro ⟨P, ⟨A, hA', -⟩, -⟩
    rw [hA] at hA'
    cases hA'
  | some A =>
    obtain ⟨P, hP⟩ := exists_namesPoint hA
    have hden := hP.denotes hA
    simp only [Bool.if_false_right, Bool.and_eq_true, decide_eq_true_eq, beq_iff_eq]
    constructor
    · rintro ⟨⟨hlt, -⟩, heq⟩
      exact ⟨P, hP, hlt, heq.symm.trans (encode_check hden hlt _ _)⟩
    · rintro ⟨Q, hQ, hlt, heq⟩
      obtain rfl := hP.unique hQ
      obtain ⟨q, hq, -⟩ := Point.decode?_encode
        (response signature • baseAffine - challenge (commitment signature) P message • P)
      rw [← heq] at hq
      exact ⟨⟨hlt, Option.isSome_of_eq_some hq⟩, (encode_check hden hlt _ _).trans heq.symm⟩

/-! ## The second half of a signature -/

/-- The signature with the two halves given. -/
def ofHalves (R s : Octets 32) : Octets 64 :=
  ⟨R.val ++ s.val, by simp [R.property, s.property]⟩

@[simp] theorem commitment_ofHalves (R s : Octets 32) : commitment (ofHalves R s) = R :=
  Subtype.ext (List.take_left' R.property)

@[simp] theorem response_ofHalves (R s : Octets 32) :
    response (ofHalves R s) = LittleEndian.value s.val :=
  congrArg LittleEndian.value (List.drop_left' R.property)

/-- Of all second halves that a signature with a given first half may have, one at most is accepted:
another one is refused, whatever the public key, the message and the first half are. -/
theorem response_unique {R s : Octets 32}
    (h : verify publicBytes message (ofHalves R s) = true) (s' : Octets 32) :
    verify publicBytes message (ofHalves R s') = true ↔ s' = s := by
  refine ⟨fun h' => ?_, fun heq => heq ▸ h⟩
  obtain ⟨P, hP, hlt, heq⟩ := verify_eq_true.1 h
  obtain ⟨Q, hQ, hlt', heq'⟩ := verify_eq_true.1 h'
  obtain rfl := hP.unique hQ
  rw [commitment_ofHalves, response_ofHalves] at heq heq'
  rw [response_ofHalves] at hlt hlt'
  -- the same multiple of P is taken from both, so the two numbers have one multiple of B
  have hsame : LittleEndian.value s'.val • baseAffine = LittleEndian.value s.val • baseAffine :=
    sub_left_inj.1 (Affine.octets_code_inj.1 (heq'.symm.trans heq))
  rw [nsmul_baseAffine_eq_iff, Nat.mod_eq_of_lt hlt', Nat.mod_eq_of_lt hlt] at hsame
  exact LittleEndian.value_inj.1 hsame

/-- Under the key that names the point of order two, the second half 5 is accepted for the point
5·B, and 5 plus the order of the base point, which has the same multiple, is not. -/
theorem response_unique_orderTwo :
    verify (LittleEndian.octets 32 0) [0x64]
        (ofHalves (Point.times 5 Point.base).encode (LittleEndian.octets 32 5)) = true ∧
      verify (LittleEndian.octets 32 0) [0x64]
        (ofHalves (Point.times 5 Point.base).encode (LittleEndian.octets 32 (5 + order))) =
          false := by
  have haccepted : verify (LittleEndian.octets 32 0) [0x64]
      (ofHalves (Point.times 5 Point.base).encode (LittleEndian.octets 32 5)) = true := by
    decide +kernel
  have hother : LittleEndian.octets 32 (5 + order) ≠ LittleEndian.octets 32 5 := by decide
  exact ⟨haccepted, Bool.eq_false_iff.2 fun h => hother ((response_unique haccepted _).1 h)⟩

end TunnelMesh.Curve
