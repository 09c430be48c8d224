/-!
# Octets

Byte strings of a fixed length, the bytes of a text, and numbers written in little-endian bytes.
-/

namespace TunnelMesh

/-- A byte string of length `n`. -/
abbrev Octets (n : Nat) := { bs : List UInt8 // bs.length = n }

namespace Octets

/-- The first `n` bytes of a byte string, filled up with zeros where it is shorter. -/
def take (n : Nat) (bs : List UInt8) : Octets n :=
  ⟨(bs ++ List.replicate n 0).take n, by simp⟩

/-- A byte string, if it has the length asked for. -/
def ofList? (n : Nat) (bs : List UInt8) : Option (Octets n) :=
  if h : bs.length = n then some ⟨bs, h⟩ else none

end Octets

/-- The bytes of a text in UTF-8. -/
def Text.utf8 (s : String) : List UInt8 :=
  s.toList.flatMap String.utf8EncodeChar

namespace LittleEndian

/-- The number whose base-256 digits, least significant first, are the bytes given. -/
def value (bs : List UInt8) : Nat :=
  bs.foldr (fun b n => b.toNat + 256 * n) 0

/-- The `n` least significant base-256 digits of a number, least significant first. -/
def bytes : Nat → Nat → List UInt8
  | 0, _ => []
  | n + 1, v => UInt8.ofNat v :: bytes n (v / 256)

@[simp] theorem length_bytes (n v : Nat) : (bytes n v).length = n := by
  induction n generalizing v with
  | zero => rfl
  | succ n ih => simp [bytes, ih]

/-- The `n` least significant bytes of a number as a byte string of that length. -/
def octets (n v : Nat) : Octets n :=
  ⟨bytes n v, length_bytes n v⟩

end LittleEndian

end TunnelMesh
