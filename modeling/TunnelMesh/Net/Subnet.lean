import TunnelMesh.Net.Ipv4

/-!
# Subnets

A subnet is an address and the number of leading bits that all its members share with it. It is
given as `address/length`, or by an address and a netmask of that many ones. The usable addresses
run from `first` to `last`: all members but the lowest and the highest, which no host may have,
except in the subnets of one or two members, where every member is usable.
-/

namespace TunnelMesh

/-- An IPv4 subnet. -/
structure Subnet where
  address : Ipv4
  /-- How many leading bits the members share. -/
  length : Nat
  length_le : length ≤ 32
  deriving DecidableEq, Repr

namespace Subnet

/-! ## Members -/

/-- How many members a subnet has. -/
def size (s : Subnet) : Nat :=
  Nat.pow 2 (32 - s.length)

/-- The lowest member, as a number. -/
def lowest (s : Subnet) : Nat :=
  s.address.toNat / s.size * s.size

/-- The highest member, as a number. -/
def highest (s : Subnet) : Nat :=
  s.lowest + (s.size - 1)

/-- The lowest usable address, as a number. -/
def first (s : Subnet) : Nat :=
  if 31 ≤ s.length then s.lowest else s.lowest + 1

/-- The highest usable address, as a number. -/
def last (s : Subnet) : Nat :=
  if 31 ≤ s.length then s.highest else s.highest - 1

/-- How many usable addresses there are. -/
def capacity (s : Subnet) : Nat :=
  s.last - s.first + 1

/-- The address may be given to a host of the subnet. -/
def isUsable (s : Subnet) (a : Ipv4) : Bool :=
  s.first ≤ a.toNat && a.toNat ≤ s.last

/-- The same subnet, named by its lowest member. -/
def truncated (s : Subnet) : Subnet :=
  { s with address := Ipv4.ofNat s.lowest }

/-! ## Texts -/

/-- The text `address/length`. -/
def text (s : Subnet) : String :=
  s.address.text ++ "/" ++ Decimal.text s.length

/-- The number of leading bits that one or two digits denote. -/
def length? (ds : List Char) : Option { n : Nat // n ≤ 32 } :=
  if ds.length ≤ 2 then
    match Decimal.natural? ds with
    | some n => if h : n ≤ 32 then some ⟨n, h⟩ else none
    | none => none
  else none

/-- The subnet that a text `address/length` denotes; the octets may have leading zeros. -/
def parse? (cs : List Char) : Option Subnet :=
  match cs.splitOn '/' with
  | [a, n] => do
    let a ← Ipv4.parseLoose? a
    let ⟨n, h⟩ ← length? n
    return ⟨a, n, h⟩
  | _ => none

/-! ## Netmasks -/

/-- The netmask with the given number of ones before its zeros, as a number. -/
def mask (length : Nat) : Nat :=
  4294967296 - Nat.pow 2 (32 - length)

/-- How many ones a netmask has, if all of them stand before its zeros. -/
def maskLength? (m : Ipv4) : Option { n : Nat // n ≤ 32 } :=
  ((List.range 33).find? fun n => mask n == m.toNat).bind fun n =>
    if h : n ≤ 32 then some ⟨n, h⟩ else none

/-- The subnet of an address and a netmask. -/
def ofMask? (a m : Ipv4) : Option Subnet :=
  (maskLength? m).map fun ⟨n, h⟩ => ⟨a, n, h⟩

end Subnet

/-- The address of a host as documents give it: an address, or `address/length`, of which the
length is ignored; blanks around it do not count. -/
def Ipv4.ofHostText? (s : String) : Option Ipv4 :=
  let cs := Text.trimChars s.toList
  match Ipv4.parse? cs with
  | some a => some a
  | none => (Subnet.parse? cs).map (·.address)

end TunnelMesh
