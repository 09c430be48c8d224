import Mathlib
import TunnelMesh.Proofs.Key

/-!
# Which keys are accepted as a pair

A public text agrees with a private one if it is the text of the private key's own public key, with
or without blanks around it. Two kinds of other texts agree too (`KeyPair.agree_iff_counterpart`).
The first denote the same coordinate u with other bytes: the highest bit does not count, and the few
numbers below 19 are also read from a number that is larger by the prime, so up to three other texts
agree with one private text (`KeyPair.other_texts_agree`). The second name another point, and the
two hash values of the check happen to fit.
-/

namespace TunnelMesh

namespace Curve

/-- The point of a private key, taken with an even x, has the order of the base point. -/
theorem addOrderOf_even_keyPoint (key : Octets 32) : addOrderOf (keyPoint key).even = order := by
  have : Fact order.Prime := ⟨prime_order⟩
  refine addOrderOf_eq_prime ?_ ?_
  · rw [← (signingPair_spec key).1, nsmul_left_comm, order_nsmul_baseAffine, nsmul_zero]
  · rw [Affine.even]
    split
    · exact keyPoint_ne_zero key
    · exact neg_ne_zero.2 (keyPoint_ne_zero key)

/-- Bytes denote the coordinate of a private key's public key just when their number is the number
of that key, the highest bit and the prime aside. -/
theorem coordinate_eq_publicKey_iff {bs key : Octets 32} :
    coordinate bs = coordinate (publicKey key) ↔
      LittleEndian.value bs.val % Point.signBit % prime =
        LittleEndian.value (publicKey key).val := by
  have hlt := (Point.times (clamped key) Point.base).u.isLt
  have hfit : (Point.times (clamped key) Point.base).u.val < 256 ^ 32 := hlt.trans (by decide)
  have hsign : (Point.times (clamped key) Point.base).u.val < Point.signBit :=
    hlt.trans (by decide)
  have hvalue : LittleEndian.value (publicKey key).val =
      (Point.times (clamped key) Point.base).u.val := LittleEndian.value_bytes_of_lt hfit
  have hcoordinate : coordinate (publicKey key) = (Point.times (clamped key) Point.base).u := by
    rw [coordinate, hvalue, Nat.mod_eq_of_lt hsign]
    exact Fin.ext (Nat.mod_eq_of_lt hlt)
  rw [hcoordinate, hvalue, Fin.ext_iff]
  rfl

/-- Other bytes than those of the public key denote its coordinate only if their number is not below
the prime. -/
theorem coordinate_eq_publicKey_iff_eq_or {bs key : Octets 32} :
    coordinate bs = coordinate (publicKey key) ↔ bs = publicKey key ∨
      prime ≤ LittleEndian.value bs.val ∧
        LittleEndian.value bs.val % Point.signBit % prime =
          LittleEndian.value (publicKey key).val := by
  constructor
  · intro h
    rw [coordinate_eq_publicKey_iff] at h
    rcases Nat.lt_or_ge (LittleEndian.value bs.val) prime with hlt | hge
    · have hsign : LittleEndian.value bs.val < Point.signBit := hlt.trans (by decide)
      rw [Nat.mod_eq_of_lt hsign, Nat.mod_eq_of_lt hlt] at h
      exact .inl (LittleEndian.value_inj.1 h)
    · exact .inr ⟨hge, h⟩
  · rintro (rfl | ⟨-, h⟩)
    · rfl
    · exact coordinate_eq_publicKey_iff.2 h

end Curve

open Curve

/-- The point of a private key or its inverse, whichever has an even x. -/
def PrivateKey.point (k : PrivateKey) : Affine :=
  (keyPoint k.bytes).even

namespace KeyPair

/-- The hash values of a check fit by chance: the public key names another point than the private
key's, but the two points, each taken times its own challenge, are the same. -/
def ChallengesMeet (d : Draw) (k : PrivateKey) (p : PublicKey) : Prop :=
  ∃ P, NamesPoint p.bytes P ∧ P ≠ k.point ∧
    challenge (commitment (k.sign d.probe.val d.nonce)) k.point d.probe.val • k.point =
      challenge (commitment (k.sign d.probe.val d.nonce)) P d.probe.val • P

/-- A signed probe is accepted just when the public key denotes the coordinate of the private key's
own public key, or the hash values fit by chance. -/
theorem verify_sign_iff_coordinate (d : Draw) (k : PrivateKey) (p : PublicKey) :
    p.verify d.probe.val (k.sign d.probe.val d.nonce) = true ↔
      coordinate p.bytes = coordinate k.publicKey.bytes ∨ ChallengesMeet d k p := by
  constructor
  · intro h
    obtain ⟨P, hP, -⟩ := verify_eq_true.1 h
    by_cases hsame : P = k.point
    · subst hsame
      exact .inl (hP.coordinate_eq (namesPoint_publicKey k.bytes))
    · exact .inr ⟨P, hP, hsame, (verify_sign_iff hP _ _).1 h⟩
  · rintro (h | ⟨P, hP, -, h⟩)
    · exact verify_sign (Point.ofU?_congr h) _ _
    · exact (verify_sign_iff hP _ _).2 h

/-- The same in bytes: the public key is that of the private key, or other bytes denote its
coordinate, or the hash values fit by chance. -/
theorem verify_sign_iff_counterpart (d : Draw) (k : PrivateKey) (p : PublicKey) :
    p.verify d.probe.val (k.sign d.probe.val d.nonce) = true ↔
      p = k.publicKey ∨
        prime ≤ LittleEndian.value p.bytes.val ∧
            LittleEndian.value p.bytes.val % Point.signBit % prime =
              LittleEndian.value k.publicKey.bytes.val ∨
          ChallengesMeet d k p := by
  have hbytes : p = k.publicKey ↔ p.bytes = Curve.publicKey k.bytes :=
    ⟨congrArg PublicKey.bytes, fun h => congrArg PublicKey.mk h⟩
  rw [verify_sign_iff_coordinate, hbytes, PrivateKey.publicKey, coordinate_eq_publicKey_iff_eq_or,
    or_assoc]

/-- A public text, without the blanks around it, is that of a private text just when both are keys
and its bytes are those of the private key's own public key. -/
theorem publicTextFor_eq_trim_iff {privateText publicText : String} :
    publicTextFor privateText = .ok (Text.trim publicText) ↔
      ∃ k p, PrivateKey.parse privateText = .ok k ∧ PublicKey.parse publicText = .ok p ∧
        p = k.publicKey := by
  rw [publicTextFor_eq_ok]
  constructor
  · rintro ⟨k, hk, htext⟩
    exact ⟨k, _, hk, PublicKey.parse_eq_ok.2 (Key.decode_eq_ok.2 htext.symm), rfl⟩
  · rintro ⟨k, p, hk, hp, rfl⟩
    exact ⟨k, hk, (Key.decode_eq_ok.1 (PublicKey.parse_eq_ok.1 hp)).symm⟩

/-- Which texts agree, for every draw: a public text that belongs to the private one; and of the
other keys, those whose number is the prime or more and, without the highest bit and modulo the
prime, that of the right key, and those for which the hash values fit by chance. A text belongs to
the private one just when its bytes are those of the right key. For each challenge of the other
point, one at most of the numbers that the challenge of the private key's point can be fits. -/
theorem agree_iff_counterpart (d : Draw) (privateText publicText : String) :
    (agree d privateText publicText = true ↔
      publicTextFor privateText = .ok (Text.trim publicText) ∨
        ∃ k p, PrivateKey.parse privateText = .ok k ∧ PublicKey.parse publicText = .ok p ∧
          (prime ≤ LittleEndian.value p.bytes.val ∧
              LittleEndian.value p.bytes.val % Point.signBit % prime =
                LittleEndian.value k.publicKey.bytes.val ∨
            ChallengesMeet d k p)) ∧
      (publicTextFor privateText = .ok (Text.trim publicText) ↔
        ∃ k p, PrivateKey.parse privateText = .ok k ∧ PublicKey.parse publicText = .ok p ∧
          p = k.publicKey) ∧
        ∀ (k : PrivateKey) (Q : Affine), {h | h < order ∧ h • k.point = Q}.Subsingleton := by
  refine ⟨?_, publicTextFor_eq_trim_iff, ?_⟩
  · rw [agree_eq_true, Accepts, publicTextFor_eq_trim_iff]
    simp only [verify_sign_iff_counterpart, and_or_left, exists_or]
  · rintro k Q h ⟨hlt, rfl⟩ h' ⟨hlt', heq⟩
    rw [← addOrderOf_even_keyPoint k.bytes] at hlt hlt'
    exact (nsmul_injOn_Iio_addOrderOf hlt' hlt heq).symm

/-- The text of a private key whose point is the inverse of the base point, so that the number of
its public key is 9. -/
def baseText : String :=
  "oCPN0IPvW7gvENYuWeFaaAAAAAAAAAAAAAAAAAAAAFA="

/-- Three texts that are not the public text of a private text agree with it, whatever is drawn:
those of 9 plus the prime, of 9 with the highest bit set, and of both. -/
theorem other_texts_agree :
    publicTextFor baseText = .ok "CQAAAAAAAAAAAAAAAAAAAAAAAAAAAAAAAAAAAAAAAAA=" ∧
      ∀ publicText ∈ ["9v///////////////////////////////////////38=",
          "CQAAAAAAAAAAAAAAAAAAAAAAAAAAAAAAAAAAAAAAAIA=",
          "9v////////////////////////////////////////8="],
        Text.trim publicText ≠ "CQAAAAAAAAAAAAAAAAAAAAAAAAAAAAAAAAAAAAAAAAA=" ∧
          ∀ d, agree d baseText publicText = true := by
  refine ⟨by decide +kernel, ?_⟩
  simp only [List.forall_mem_cons, List.not_mem_nil, false_imp_iff, implies_true, and_true]
  refine ⟨⟨by decide, ?_⟩, ⟨by decide, ?_⟩, by decide, ?_⟩
  all_goals exact agree_of_denoteOnePoint (by decide +kernel)

end KeyPair

end TunnelMesh
