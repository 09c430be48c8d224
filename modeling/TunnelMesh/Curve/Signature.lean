import TunnelMesh.Curve.Point
import TunnelMesh.Curve.Sha512

/-!
# Signatures with Diffie-Hellman keys

A private key is 32 bytes, of which all but the clamped bits count, and its public key is the
coordinate u of that multiple of the base point. To sign, the multiple is taken with the sign for
which x is even, so that a verifier needs u only. A signature is a point R and a number s below
the order of the base point, and it is accepted when s·B − h·A is written as R is, where A is the
point of the public key and h a hash of R, A and the message.
-/

namespace TunnelMesh.Curve

/-- The order of the base point. -/
def order : Nat :=
  Nat.pow 2 252 + 27742317777372353535851937790883648493

/-- The number of a private key: the three lowest bits and the highest bit are cleared, and the
second highest bit is set. -/
def clamped (key : Octets 32) : Nat :=
  let n := LittleEndian.value key.val
  Nat.pow 2 254 + n % Nat.pow 2 254 / 8 * 8

/-- The public key of a private key. -/
def publicKey (key : Octets 32) : Octets 32 :=
  LittleEndian.octets 32 (Point.times (clamped key) Point.base).u.val

/-- The hash of a byte string as a number below the order. -/
def hashToScalar (bs : List UInt8) : Nat :=
  LittleEndian.value (Sha512.hash bs).val % order

/-- What stands before the hashed parts of a nonce: the number 2²⁵⁶ − 2. -/
def nonceLabel : List UInt8 :=
  0xFE :: List.replicate 31 0xFF

/-- The number whose multiple of the base point has an even x, and that point as bytes. -/
def signingPair (key : Octets 32) : Nat × Octets 32 :=
  let k := clamped key % order
  let code := (Point.times k Point.base).code
  (if code < Point.signBit then k else (order - k) % order,
    LittleEndian.octets 32 (code % Point.signBit))

/-- The signature of a message. The 64 random bytes make two signatures of one message differ. -/
def sign (key : Octets 32) (message : List UInt8) (random : Octets 64) : Octets 64 :=
  let (a, shown) := signingPair key
  let r := hashToScalar (nonceLabel ++ LittleEndian.bytes 32 a ++ message ++ random.val)
  let R := (Point.times r Point.base).encode
  let h := hashToScalar (R.val ++ shown.val ++ message)
  ⟨R.val ++ LittleEndian.bytes 32 ((r + h * a) % order), by simp [R.property]⟩

/-- The first half of a signature: a point as bytes. -/
def commitment (signature : Octets 64) : Octets 32 :=
  ⟨signature.val.take 32, by simp [signature.property]⟩

/-- The second half of a signature: a number. -/
def response (signature : Octets 64) : Nat :=
  LittleEndian.value (signature.val.drop 32)

/-- A signature of a message is accepted under a public key. -/
def verify (key : Octets 32) (message : List UInt8) (signature : Octets 64) : Bool :=
  match Point.ofU? key with
  | none => false
  | some A =>
    let R := commitment signature
    let s := response signature
    if s < order ∧ (Point.decode? R).isSome then
      let h := hashToScalar (R.val ++ A.encode.val ++ message)
      ((Point.times s Point.base).add (Point.times h A.neg)).encode == R
    else false

end TunnelMesh.Curve
