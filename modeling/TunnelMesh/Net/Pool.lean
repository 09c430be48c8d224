import TunnelMesh.Net.Subnet
import TunnelMesh.Error

/-!
# Address pools

A pool is a subnet together with the addresses of it that are claimed. Addresses are handed out
lowest first, so the same subnet with the same claims always hands out the same addresses.
-/

namespace TunnelMesh

/-- A subnet with the set of its claimed addresses, each listed once. -/
structure Pool where
  subnet : Subnet
  claimed : List Ipv4
  deriving DecidableEq, Repr

namespace Pool

/-! ## Building a pool -/

/-- The pool of a subnet with nothing claimed. -/
def ofSubnet (s : Subnet) : Pool :=
  ⟨s.truncated, []⟩

/-- The pool of the subnet `address/length`. Blanks around the text do not count, but are kept in
the error. -/
def ofCidr (cidr : String) : Except MeshError Pool :=
  match Subnet.parse? (Text.trimChars cidr.toList) with
  | some s => .ok (ofSubnet s)
  | none => .error (.invalidSubnet (.notSubnet cidr))

/-- The pool of the subnet with the given address and netmask. -/
def ofAddressAndNetmask (address netmask : String) : Except MeshError Pool :=
  match Ipv4.parse? (Text.trimChars address.toList) with
  | none => .error (.invalidSubnet (.notAddress address))
  | some a =>
    match Ipv4.parse? (Text.trimChars netmask.toList) with
    | none => .error (.invalidSubnet (.notAddress netmask))
    | some m =>
      match Subnet.ofMask? a m with
      | none => .error (.invalidSubnet (.notMask netmask))
      | some s => .ok (ofSubnet s)

/-! ## Claims -/

/-- The address is claimed. -/
def isClaimed (p : Pool) (a : Ipv4) : Bool :=
  p.claimed.contains a

/-- The pool with one more address claimed. -/
def insert (p : Pool) (a : Ipv4) : Pool :=
  if p.isClaimed a then p else { p with claimed := a :: p.claimed }

/-- Claims an address if it is usable, and says whether it is claimed now. -/
def claim (p : Pool) (a : Ipv4) : Bool × Pool :=
  if p.subnet.isUsable a then (true, p.insert a) else (false, p)

/-- Claims the usable ones of several addresses. -/
def claimAll (p : Pool) (as : List Ipv4) : Pool :=
  as.foldl (fun p a => (p.claim a).2) p

/-- Gives up the claim of an address, and says whether there was one. -/
def release (p : Pool) (a : Ipv4) : Bool × Pool :=
  (p.isClaimed a, { p with claimed := p.claimed.erase a })

/-- The lowest of `count` numbers from `n` on whose address is not claimed. -/
def firstFree (p : Pool) : Nat → Nat → Option Ipv4
  | _, 0 => none
  | n, count + 1 =>
    if p.isClaimed (Ipv4.ofNat n) then p.firstFree (n + 1) count else some (Ipv4.ofNat n)

/-- The lowest usable address that is not claimed. -/
def lowestFree (p : Pool) : Option Ipv4 :=
  p.firstFree p.subnet.first p.subnet.capacity

/-- Claims the lowest free address, if there is one. -/
def allocate (p : Pool) : Option (Ipv4 × Pool) :=
  p.lowestFree.map fun a => (a, p.insert a)

/-- Claims the lowest free address a number of times; there is none each time that no address is
free. -/
def allocateMany : Nat → Pool → List (Option Ipv4) × Pool
  | 0, p => ([], p)
  | n + 1, p =>
    match p.allocate with
    | some (a, p) => let (as, p) := allocateMany n p; (some a :: as, p)
    | none => let (as, p) := allocateMany n p; (none :: as, p)

/-- How many addresses are claimed. -/
def claimedCount (p : Pool) : Nat :=
  p.claimed.length

/-- How many usable addresses are left. -/
def availableCount (p : Pool) : Nat :=
  p.subnet.capacity - p.claimedCount

end Pool

end TunnelMesh
