/-!
# Topologies

A topology names a mesh and lists its groups of hosts, each with the way in which its hosts are
reached from outside. `Defaults` holds the settings of hosts that leave them open.
-/

namespace TunnelMesh

/-- How the hosts of a group are reached from outside the group. -/
inductive Visibility where
  /-- Every host on its own public address. -/
  | openNat
  /-- The first host only, which relays for the others. -/
  | relayed
  /-- Every host on a public address and on a private one. -/
  | cloud
  /-- One host on the open internet. -/
  | wan
  deriving DecidableEq, Repr

namespace Visibility

/-- The name of a visibility. -/
def name : Visibility → String
  | .openNat => "OPEN"
  | .relayed => "RELAYED"
  | .cloud => "CLOUD"
  | .wan => "WAN"

/-- The first host of a group relays for the group. -/
def electsRelay : Visibility → Bool
  | .relayed => true
  | _ => false

end Visibility

/-- A machine: its name and where it is reached. -/
structure Server where
  hostname : String := ""
  publicAddress : Option String := none
  privateAddress : Option String := none
  deriving DecidableEq, Repr, Inhabited

/-- A machine's settings in the mesh. -/
structure Host where
  server : Server := {}
  /-- The address inside the mesh. -/
  address : Option String := none
  publicKey : Option String := none
  privateKey : Option String := none
  listenPort : Option UInt16 := none
  dns : List String := []
  /-- The routing table. -/
  table : Option String := none
  mtu : Option UInt32 := none
  /-- Commands before the interface comes up. -/
  preUp : List String := []
  /-- Commands after the interface comes up. -/
  postUp : List String := []
  /-- Commands before the interface goes down. -/
  preDown : List String := []
  /-- Commands after the interface goes down. -/
  postDown : List String := []
  /-- The host takes no defaults, no address and no keys. -/
  ignoreDefault : Bool := false
  deriving DecidableEq, Repr, Inhabited

/-- The name of a host. -/
def Host.hostname (h : Host) : String :=
  h.server.hostname

/-- Hosts of one local network. -/
structure Group where
  name : String := ""
  visibility : Visibility
  hosts : List Host := []
  deriving DecidableEq, Repr

/-- A mesh: its subnet and its groups. -/
structure Topology where
  name : String := ""
  address : Option String := none
  netmask : Option String := none
  groups : List Group := []
  deriving DecidableEq, Repr, Inhabited

namespace Topology

/-- All hosts, group by group. -/
def hosts (t : Topology) : List Host :=
  t.groups.flatMap (·.hosts)

end Topology

/-- The settings of hosts that leave them open. -/
structure Defaults where
  address : Option String := none
  netmask : Option String := none
  listenPort : Option UInt16 := none
  dns : List String := []
  table : Option String := none
  mtu : Option UInt32 := none
  preUp : List String := []
  postUp : List String := []
  preDown : List String := []
  postDown : List String := []
  /-- The seconds between two packets that keep a tunnel open, for every peer. -/
  persistentKeepalive : Option UInt16 := none
  deriving DecidableEq, Repr, Inhabited

/-- A topology and defaults that are given together. -/
structure Request where
  defaults : Defaults := {}
  topology : Topology := {}
  deriving DecidableEq, Repr, Inhabited

end TunnelMesh
