import TunnelMesh.Curve.Signature
import TunnelMesh.Text.Blank
import TunnelMesh.Error

/-!
# Keys

Private and public keys of 32 bytes, as topologies and configurations carry them: base64 texts,
read with any blanks around them. What has to be random is given to the functions here as a
`Draw`, so that they are functions of what they show.
-/

namespace TunnelMesh

/-- A private key. All bytes are kept as they are given. -/
structure PrivateKey where
  bytes : Octets 32
  deriving DecidableEq

/-- A public key. -/
structure PublicKey where
  bytes : Octets 32
  deriving DecidableEq

/-- What one host may need of randomness: a new private key, a message to sign, and the randomness
of its signature. -/
structure Draw where
  key : Octets 32
  probe : Octets 64
  nonce : Octets 64
  deriving DecidableEq

/-- The draws of all hosts of a topology, by their position in it. -/
abbrev Draws := Nat → Draw

namespace Draw

/-- Draws that are as unpredictable as a seed. -/
def expand (seed : List UInt8) : Draws := fun i =>
  let part (label : UInt8) : Octets 64 :=
    Sha512.hash (label :: (LittleEndian.bytes 8 i ++ seed))
  ⟨Octets.take 32 (part 0).val, part 1, part 2⟩

end Draw

namespace Key

/-- The bytes of a key's text. -/
def decode (s : String) : Except MeshError (Octets 32) :=
  match Base64.decode (Text.trim s) with
  | .error d => .error (.invalidBase64 d)
  | .ok bs =>
    match Octets.ofList? 32 bs with
    | none => .error (.invalidKeyLength bs.length)
    | some key => .ok key

/-- The text is a key's. -/
def isWellFormed (s : String) : Bool :=
  match decode s with
  | .ok _ => true
  | .error _ => false

end Key

namespace PublicKey

/-- The public key of a text. -/
def parse (s : String) : Except MeshError PublicKey :=
  (Key.decode s).map PublicKey.mk

/-- The text of a public key. -/
def text (k : PublicKey) : String :=
  Base64.encode k.bytes.val

/-- The text of a public key in messages: its first eight characters. -/
def shortText (k : PublicKey) : String :=
  "PublicKey(" ++ String.ofList (k.text.toList.take 8) ++ "..)"

end PublicKey

namespace PrivateKey

/-- The private key of a text. -/
def parse (s : String) : Except MeshError PrivateKey :=
  (Key.decode s).map PrivateKey.mk

/-- The text of a private key. -/
def text (k : PrivateKey) : String :=
  Base64.encode k.bytes.val

/-- The text of every private key in messages. -/
def shortText (_ : PrivateKey) : String :=
  "PrivateKey([REDACTED])"

/-- The public key that belongs to a private key. -/
def publicKey (k : PrivateKey) : PublicKey :=
  ⟨Curve.publicKey k.bytes⟩

/-- The signature of a message. -/
def sign (k : PrivateKey) (message : List UInt8) (nonce : Octets 64) : Octets 64 :=
  Curve.sign k.bytes message nonce

end PrivateKey

/-- The signature of a message is accepted under the key. -/
def PublicKey.verify (k : PublicKey) (message : List UInt8) (signature : Octets 64) : Bool :=
  Curve.verify k.bytes message signature

/-- A private key with its public key. -/
structure KeyPair where
  privateKey : PrivateKey
  publicKey : PublicKey
  deriving DecidableEq

namespace KeyPair

/-- The pair of a private key. -/
def ofPrivate (k : PrivateKey) : KeyPair :=
  ⟨k, k.publicKey⟩

/-- The new pair of a draw. -/
def fresh (d : Draw) : KeyPair :=
  ofPrivate ⟨d.key⟩

/-- The text of a pair in messages. -/
def shortText (p : KeyPair) : String :=
  "KeyPair \x7b private: " ++ p.privateKey.shortText ++ ", public: " ++
    p.publicKey.shortText ++ " \x7d"

/-- Two texts are the keys of one pair: a probe signed with the private key is accepted under the
public key. -/
def agree (d : Draw) (privateText publicText : String) : Bool :=
  match PrivateKey.parse privateText, PublicKey.parse publicText with
  | .ok k, .ok p => p.verify d.probe.val (k.sign d.probe.val d.nonce)
  | _, _ => false

end KeyPair

/-- The public key's text for a private key's text. -/
def publicTextFor (privateText : String) : Except MeshError String :=
  (PrivateKey.parse privateText).map (·.publicKey.text)

end TunnelMesh
