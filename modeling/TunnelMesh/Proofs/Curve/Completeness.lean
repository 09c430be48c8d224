import Mathlib
import TunnelMesh.Proofs.Curve.Acceptance

/-!
# Signatures made with a private key

Every signature is accepted under the public key of its private key, for all keys, messages and
random bytes (`verify_sign`). Signer and verifier reach one point A on two ways: the signer as a
multiple of the base point with the factor negated where x is odd (`signingPair_spec`), the verifier
from the coordinate u (`namesPoint_publicKey`). So both hash the same bytes, and s·B − h·A is R.
Under a key that names another point P it is accepted just when h'·P is h·A, where h' is the hash
with P in the place of A (`verify_sign_iff`).
-/

namespace TunnelMesh.Curve

variable (key : Octets 32)

/-- The point of a private key. -/
def keyPoint : Affine :=
  clamped key • baseAffine

/-- A clamped key has as many bits as a multiplication goes through. -/
theorem clamped_lt : clamped key < 2 ^ 256 := by
  have hpow : Nat.pow 2 254 = 2 ^ 254 := rfl
  rw [clamped, hpow]
  have := Nat.mod_lt (LittleEndian.value key.val) (show 2 ^ 254 > 0 by decide)
  omega

/-- The number of a private key is no multiple of the order: it is 8 times a number that is positive
and below the order. -/
theorem not_order_dvd_clamped : ¬ order ∣ clamped key := by
  have hpow : Nat.pow 2 254 = 8 * 2 ^ 251 := by decide
  have hrest := Nat.mod_lt (LittleEndian.value key.val) (show Nat.pow 2 254 > 0 by decide)
  have hbound : 2 ^ 252 < order := by decide
  have hclamped : clamped key =
      8 * (2 ^ 251 + LittleEndian.value key.val % Nat.pow 2 254 / 8) := by
    rw [clamped, mul_add, ← hpow, mul_comm 8]
  rw [hclamped]
  intro hdvd
  have hcop : Nat.Coprime order 8 := by decide
  obtain ⟨m, hm⟩ := hcop.dvd_of_dvd_mul_left hdvd
  rw [hpow] at hrest hm
  generalize LittleEndian.value key.val % (8 * 2 ^ 251) = rest at hrest hm
  have hlt : order * m < order * 1 := by omega
  obtain rfl : m = 0 := by
    have := Nat.lt_of_mul_lt_mul_left hlt
    omega
  omega

/-- No private key has the neutral element as its point: a clamped key is not a multiple of the
order. -/
theorem keyPoint_ne_zero : keyPoint key ≠ 0 := by
  rw [keyPoint, Ne, ← addOrderOf_dvd_iff_nsmul_eq_zero, addOrderOf_baseAffine]
  exact not_order_dvd_clamped key

/-- The verifier's point. -/
theorem namesPoint_publicKey : NamesPoint (publicKey key) (keyPoint key).even :=
  Point.ofU?_u (denotes_base.times (clamped_lt key)) (keyPoint_ne_zero key)

/-- The signer's factor and point: the factor yields the point of the private key or its inverse,
whichever has an even x, and the bytes are those of that point. -/
theorem signingPair_spec :
    (signingPair key).1 • baseAffine = (keyPoint key).even ∧
      (signingPair key).2 = LittleEndian.octets 32 (keyPoint key).even.code := by
  have hmod : (clamped key % order) • baseAffine = keyPoint key :=
    nsmul_baseAffine_eq_iff.2 (Nat.mod_mod ..)
  have hlt : clamped key % order < order := Nat.mod_lt _ (by decide)
  have hden := denotes_base.times (hlt.trans order_lt)
  rw [hmod] at hden
  rw [signingPair, hden.code, Affine.code_even, Affine.even]
  refine ⟨?_, rfl⟩
  by_cases heven : (keyPoint key).x.val % 2 = 0
  · rw [if_pos heven, if_pos ((Affine.code_lt_signBit _).2 heven), hmod]
  · rw [if_neg heven, if_neg fun h => heven ((Affine.code_lt_signBit _).1 h), ← hmod,
      eq_neg_iff_add_eq_zero, ← add_nsmul, ← zero_nsmul baseAffine, nsmul_baseAffine_eq_iff,
      Nat.mod_add_mod, Nat.sub_add_cancel hlt.le, Nat.mod_self, Nat.zero_mod]

variable {key}

/-- The two halves of a signature, for the factor and the bytes of the signer's point. -/
theorem sign_halves {a : Nat} {shown : Octets 32} (hpair : signingPair key = (a, shown))
    (message : List UInt8) (random : Octets 64) :
    ∃ r < order, commitment (sign key message random) = (Point.times r Point.base).encode ∧
      response (sign key message random) = (r + hashToScalar
        ((commitment (sign key message random)).val ++ shown.val ++ message) * a) % order := by
  refine ⟨hashToScalar (nonceLabel ++ LittleEndian.bytes 32 a ++ message ++ random.val),
    hashToScalar_lt _, ?_⟩
  generalize hr : hashToScalar (nonceLabel ++ LittleEndian.bytes 32 a ++ message ++ random.val) = r
  have hval : (sign key message random).val = (Point.times r Point.base).encode.val ++
      LittleEndian.bytes 32 ((r + hashToScalar
        ((Point.times r Point.base).encode.val ++ shown.val ++ message) * a) % order) := by
    rw [sign, hpair, ← hr]
  have hcommit : commitment (sign key message random) = (Point.times r Point.base).encode :=
    Subtype.ext ((congrArg (List.take 32) hval).trans
      (List.take_left' (Point.times r Point.base).encode.property))
  refine ⟨hcommit, ?_⟩
  have hlt : (r + hashToScalar
      ((Point.times r Point.base).encode.val ++ shown.val ++ message) * a) % order < 256 ^ 32 :=
    (Nat.mod_lt _ (by decide)).trans order_lt
  rw [hcommit, response, hval, List.drop_left' (Point.times r Point.base).encode.property,
    LittleEndian.value_bytes_of_lt hlt]

/-- A signature made with a private key is accepted under a public key just when the challenges of
the two points, each taken times its point, are the same. -/
theorem verify_sign_iff {publicBytes : Octets 32} {P : Affine} (hP : NamesPoint publicBytes P)
    (message : List UInt8) (random : Octets 64) :
    verify publicBytes message (sign key message random) = true ↔
      challenge (commitment (sign key message random)) (keyPoint key).even message •
          (keyPoint key).even =
        challenge (commitment (sign key message random)) P message • P := by
  obtain ⟨ha, hshown⟩ := signingPair_spec key
  generalize hpair : signingPair key = pair at ha hshown
  obtain ⟨a, shown⟩ := pair
  obtain ⟨r, hr, hcommit, hresp⟩ := sign_halves hpair message random
  have hR := (denotes_base.times (hr.trans order_lt)).encode
  obtain rfl : shown = LittleEndian.octets 32 (keyPoint key).even.code := hshown
  rw [← challenge] at hresp
  generalize challenge (commitment (sign key message random)) (keyPoint key).even message = h at *
  have hlt : response (sign key message random) < order := by
    rw [hresp]
    exact Nat.mod_lt _ (by decide)
  have hsum : response (sign key message random) • baseAffine =
      r • baseAffine + h • (keyPoint key).even := by
    rw [hresp, nsmul_baseAffine_eq_iff.2 (Nat.mod_mod ..), add_nsmul, mul_nsmul', ha]
  rw [verify_eq_true]
  constructor
  · rintro ⟨Q, hQ, -, heq⟩
    obtain rfl := hP.unique hQ
    rw [hcommit, hR, Affine.octets_code_inj, ← hR, ← hcommit, hsum, eq_sub_iff_add_eq,
      add_right_inj] at heq
    exact heq.symm
  · intro heq
    refine ⟨P, hP, hlt, ?_⟩
    rw [← heq, hsum, add_sub_cancel_right, hcommit, hR]

/-- A signature is accepted under every public key whose point is that of the private key. -/
theorem verify_sign {publicBytes : Octets 32}
    (h : Point.ofU? publicBytes = Point.ofU? (publicKey key)) (message : List UInt8)
    (random : Octets 64) : verify publicBytes message (sign key message random) = true := by
  obtain ⟨A, hA, hP⟩ := namesPoint_publicKey key
  exact (verify_sign_iff ⟨A, h.trans hA, hP⟩ message random).2 rfl

end TunnelMesh.Curve
