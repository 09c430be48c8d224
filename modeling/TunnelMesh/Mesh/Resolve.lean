import TunnelMesh.Key
import TunnelMesh.Net.Pool
import TunnelMesh.Topology.Edit

/-!
# Resolving a topology

The gaps of a topology are filled in steps, each a function on all hosts in their order:

* the subnet is taken from the defaults where the topology leaves it open;
* the settings of a single line are trimmed, and the names of the hosts checked;
* every usable address that a host declares is claimed, and then each host without one is given
  the lowest address that is still free;
* hosts whose keys cannot be used are given new ones;
* settings that a host leaves open are taken from the defaults.

Hosts that ignore the defaults go through the second step only, but the addresses that they
declare are claimed like all others.
-/

namespace TunnelMesh

/-! ## The subnet -/

/-- An optional text that is absent or blank. -/
def isUnset (s : Option String) : Bool :=
  (Text.nonBlank s).isNone

/-- A text, or the default's where it is absent or blank and the default is not. -/
def orDefault (own default_ : Option String) : Option String :=
  if isUnset own && !isUnset default_ then default_ else own

namespace Topology

/-- The topology with the subnet of the defaults where it leaves its own open. -/
def withDefaultSubnet (t : Topology) (d : Defaults) : Topology :=
  { t with address := orDefault t.address d.address, netmask := orDefault t.netmask d.netmask }

/-- The pool of the topology's subnet. A netmask is looked at only if the address gives no
length. -/
def pool (t : Topology) : Except MeshError Pool :=
  match Text.nonBlank t.address with
  | none => .error .missingSubnet
  | some address =>
    if address.toList.contains '/' then Pool.ofCidr address
    else
      match Text.nonBlank t.netmask with
      | none => .error (.invalidSubnet (.noMask address))
      | some netmask => Pool.ofAddressAndNetmask address netmask

end Topology

/-! ## Names -/

namespace Host

/-- The host with blanks cut off from the settings of a single line. -/
def trimmed (h : Host) : Host :=
  { h with
    server := {
      hostname := Text.trim h.server.hostname
      publicAddress := h.server.publicAddress.map Text.trim
      privateAddress := h.server.privateAddress.map Text.trim }
    address := h.address.map Text.trim
    publicKey := h.publicKey.map Text.trim
    privateKey := h.privateKey.map Text.trim
    table := h.table.map Text.trim }

end Host

/-- The names of the hosts of one group are not empty and not among those seen before. The result
is all names seen. -/
def checkNames (group : String) : List String → List Host → Except MeshError (List String)
  | seen, [] => .ok seen
  | seen, h :: hs =>
    if h.hostname = "" then .error (.missingHostname group)
    else if seen.contains h.hostname then .error (.duplicateHostname h.hostname)
    else checkNames group (h.hostname :: seen) hs

/-- The names of the hosts of all groups are not empty and differ from each other. -/
def checkAllNames : List String → List Group → Except MeshError (List String)
  | seen, [] => .ok seen
  | seen, g :: gs => do
    let seen ← checkNames g.name seen g.hosts
    checkAllNames seen gs

/-! ## Addresses -/

namespace Host

/-- The address that a host declares, if it can be read. -/
def declared? (h : Host) : Option Ipv4 :=
  h.address.bind Ipv4.ofHostText?

/-- A host declares a usable address of a subnet. -/
def isPlaced (s : Subnet) (h : Host) : Bool :=
  match h.declared? with
  | some a => s.isUsable a
  | none => false

end Host

/-- The pool with the usable addresses claimed that the hosts declare. -/
def Pool.claimDeclared (p : Pool) (hs : List Host) : Pool :=
  p.claimAll (hs.filterMap Host.declared?)

/-- The hosts with the lowest free addresses for those that have none. -/
def placeHosts : Pool → List Host → Except MeshError (List Host)
  | _, [] => .ok []
  | p, h :: hs =>
    if h.ignoreDefault || h.isPlaced p.subnet then do
      let rest ← placeHosts p hs
      return h :: rest
    else
      match p.allocate with
      | none => .error (.subnetExhausted h.hostname p.subnet.text)
      | some (a, p) => do
        let rest ← placeHosts p hs
        return { h with address := some a.text } :: rest

/-! ## Keys -/

/-- Why a host is given new keys. -/
inductive RekeyReason where
  | missingPrivateKey
  | invalidPrivateKey
  | missingPublicKey
  | invalidPublicKey
  | mismatchedPair
  deriving DecidableEq, Repr

/-- The wording of a reason. -/
def RekeyReason.message : RekeyReason → String
  | .missingPrivateKey => "missing private key"
  | .invalidPrivateKey => "invalid private key"
  | .missingPublicKey => "missing public key"
  | .invalidPublicKey => "invalid public key"
  | .mismatchedPair => "public key does not match private key"

/-- A host that was given new keys. -/
structure Rotation where
  hostname : String
  reason : RekeyReason
  deriving DecidableEq, Repr

namespace Host

/-- Why a host's keys cannot be used, if they cannot. -/
def rekeyReason (d : Draw) (h : Host) : Option RekeyReason :=
  match Text.nonBlank h.privateKey with
  | none => some .missingPrivateKey
  | some k =>
    if !Key.isWellFormed k then some .invalidPrivateKey
    else
      match Text.nonBlank h.publicKey with
      | none => some .missingPublicKey
      | some p =>
        if !Key.isWellFormed p then some .invalidPublicKey
        else if !KeyPair.agree d k p then some .mismatchedPair
        else none

/-- The host with the keys of a pair. -/
def withKeys (h : Host) (p : KeyPair) : Host :=
  { h with privateKey := some p.privateKey.text, publicKey := some p.publicKey.text }

/-- The host with keys that can be used, and why it was given new ones, if it was. -/
def withUsableKeys (d : Draw) (h : Host) : Host × Option RekeyReason :=
  if h.ignoreDefault then (h, none)
  else
    match h.rekeyReason d with
    | none => (h, none)
    | some reason => (h.withKeys (KeyPair.fresh d), some reason)

end Host

/-! ## Defaults -/

/-- A list, or the default's where all entries are blank and the default has entries. -/
def orDefaultList (own default_ : List String) : List String :=
  if own.all Text.isBlankText && !default_.isEmpty then default_ else own

/-- The host with the settings of the defaults where it leaves its own open. -/
def Host.withDefaults (d : Defaults) (h : Host) : Host :=
  if h.ignoreDefault then h
  else
    { h with
      listenPort := h.listenPort.or d.listenPort
      dns := orDefaultList h.dns d.dns
      table := orDefault h.table d.table
      mtu := h.mtu.or d.mtu
      preUp := orDefaultList h.preUp d.preUp
      postUp := orDefaultList h.postUp d.postUp
      preDown := orDefaultList h.preDown d.preDown
      postDown := orDefaultList h.postDown d.postDown }

/-! ## All steps -/

/-- A topology without gaps, its subnet, and the hosts that were given new keys. -/
structure Resolved where
  topology : Topology
  subnet : Subnet
  rotations : List Rotation
  deriving DecidableEq

/-- The topology with all gaps filled from the defaults and, for keys, from the draw at each host's
position. -/
def Topology.resolve (t : Topology) (d : Defaults) (draws : Draws) : Except MeshError Resolved := do
  let t := t.withDefaultSubnet d
  let pool ← t.pool
  let t := t.withHosts (t.hosts.map Host.trimmed)
  let _ ← checkAllNames [] t.groups
  let placed ← placeHosts (pool.claimDeclared t.hosts) t.hosts
  let keyed := placed.mapIdx fun i h => h.withUsableKeys (draws i)
  return {
    topology := t.withHosts (keyed.map fun (h, _) => h.withDefaults d)
    subnet := pool.subnet
    rotations := keyed.filterMap fun (h, reason) => reason.map (⟨h.hostname, ·⟩) }

end TunnelMesh
