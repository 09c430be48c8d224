import Mathlib
import TunnelMesh.Text.Octets

/-!
# Numbers and texts as bytes

The bytes of a number denote the number again, as far as they reach (`value_bytes`), and the number
of bytes has these bytes again (`bytes_value`). No two texts have the same bytes
(`Text.utf8_injective`).
-/

namespace TunnelMesh

/-- Texts are told by their bytes. -/
theorem Text.utf8_injective : Function.Injective utf8 := by
  intro s t h
  rw [← String.toByteArray_inj, ← String.utf8Encode_toList, ← String.utf8Encode_toList]
  exact congrArg List.toByteArray h

namespace LittleEndian

/-- The bytes of a number denote the number modulo the power of 256 that they reach. -/
theorem value_bytes (n v : Nat) : value (bytes n v) = v % 256 ^ n := by
  induction n generalizing v with
  | zero => simp [bytes, value, Nat.mod_one]
  | succ n ih =>
    have hcons : value (bytes (n + 1) v) = v % 256 + 256 * value (bytes n (v / 256)) := by
      simp [bytes, value]
    rw [hcons, ih, pow_succ', Nat.mod_mul]

/-- A number that fits is the number of its bytes. -/
theorem value_bytes_of_lt {n v : Nat} (h : v < 256 ^ n) : value (bytes n v) = v := by
  rw [value_bytes, Nat.mod_eq_of_lt h]

/-- Bytes are those of the number that they denote. -/
theorem bytes_value (bs : List UInt8) : bytes bs.length (value bs) = bs := by
  induction bs with
  | nil => rfl
  | cons b bs ih =>
    have hlow : UInt8.ofNat (b.toNat + 256 * value bs) = b := by
      refine UInt8.toNat_inj.1 ?_
      have := b.toNat_lt
      simp
    have hhigh : (b.toNat + 256 * value bs) / 256 = value bs := by
      have := b.toNat_lt
      omega
    rw [value, List.foldr_cons, ← value, List.length_cons, bytes, hlow, hhigh, ih]

/-- Byte strings of one length that denote one number are the same. -/
theorem value_inj {n : Nat} {bs bs' : Octets n} : value bs.val = value bs'.val ↔ bs = bs' := by
  refine ⟨fun h => Subtype.ext ?_, fun h => h ▸ rfl⟩
  rw [← bytes_value bs.val, ← bytes_value bs'.val, h, bs.property, bs'.property]

end LittleEndian

end TunnelMesh
