import TunnelMesh.Text.Blank
import TunnelMesh.Text.Decimal

/-!
# IPv4 addresses

Addresses are numbers below 2³², written as four decimal octets. There are two ways to read one:
`Ipv4.parse?` takes octets without leading zeros, which is the form that `Ipv4.text` writes, and
`Ipv4.parseLoose?` takes any octets of up to three digits, as they may stand before a `/`.
-/

namespace TunnelMesh

/-- An IPv4 address as a number, the first octet most significant. -/
structure Ipv4 where
  toNat : Nat
  lt : toNat < 4294967296
  deriving DecidableEq, Repr

namespace Ipv4

/-- The address of a number, taken modulo 2³². -/
def ofNat (n : Nat) : Ipv4 :=
  ⟨n % 4294967296, Nat.mod_lt _ (by decide)⟩

/-- The address of four octets. -/
def ofOctets (a b c d : Nat) : Ipv4 :=
  ofNat (((a * 256 + b) * 256 + c) * 256 + d)

/-- The dotted characters of an address. -/
def chars (a : Ipv4) : List Char :=
  Decimal.digits (a.toNat / 16777216) ++ '.' :: (Decimal.digits (a.toNat / 65536 % 256) ++
    '.' :: (Decimal.digits (a.toNat / 256 % 256) ++ '.' :: Decimal.digits (a.toNat % 256)))

/-- The dotted text of an address. -/
def text (a : Ipv4) : String :=
  String.ofList a.chars

/-- A number without leading zeros. -/
def isPlain (ds : List Char) : Bool :=
  ds.length == 1 || ds.head? != some '0'

/-- The octet that one to three digits denote. -/
def octet? (ds : List Char) : Option Nat :=
  if ds.length ≤ 3 then
    match Decimal.natural? ds with
    | some n => if n < 256 then some n else none
    | none => none
  else none

/-- The address of four octets between points; leading zeros are allowed. -/
def parseLoose? (cs : List Char) : Option Ipv4 :=
  match cs.splitOn '.' with
  | [a, b, c, d] => do
    let a ← octet? a
    let b ← octet? b
    let c ← octet? c
    let d ← octet? d
    return ofOctets a b c d
  | _ => none

/-- The address of four octets between points, none with a leading zero. -/
def parse? (cs : List Char) : Option Ipv4 :=
  if (cs.splitOn '.').all isPlain then parseLoose? cs else none

end Ipv4

end TunnelMesh
