import TunnelMesh.Config.Basic
import TunnelMesh.Key
import TunnelMesh.Topology.Basic

/-!
# Stations

A station is a host together with its place in the topology, which is all that another host needs
to know to reach it: hosts of other groups on the public address, hosts of the same group on the
private one, and the relay of its own group not at all. Groups are told apart by their names, so
two groups of one name are one local network.
-/

namespace TunnelMesh

/-- A host and the group in which it is declared. -/
structure Station where
  host : Host
  /-- The position of the group in the topology. -/
  groupIndex : Nat
  groupName : String
  visibility : Visibility
  /-- The host relays for its group. -/
  isRelay : Bool
  deriving DecidableEq, Repr

/-- How one host reaches another. -/
inductive Reach where
  | publicly
  | privately
  /-- Not directly: the peer is the relay of the requester's own group. -/
  | unknown
  deriving DecidableEq, Repr

/-- The name of a way to reach a host. -/
def Reach.name : Reach → String
  | .publicly => "PUBLIC"
  | .privately => "PRIVATE"
  | .unknown => "UNKNOWN"

namespace Station

/-- The station at a position of a group. -/
def ofHost (h : Host) (groupIndex : Nat) (g : Group) (position : Nat) : Station where
  host := h
  groupIndex := groupIndex
  groupName := g.name
  visibility := g.visibility
  isRelay := position == 0 && g.visibility.electsRelay

/-- The name of a station's host. -/
def hostname (s : Station) : String :=
  s.host.hostname

/-- How `requester` reaches a station. -/
def reach (s requester : Station) : Reach :=
  if s.groupName ≠ requester.groupName then .publicly
  else if s.isRelay then .unknown
  else .privately

/-- The address at which `requester` reaches a station, if one is set. -/
def addressFor (s requester : Station) : Option String :=
  match s.reach requester with
  | .publicly => Text.nonBlank s.host.server.publicAddress
  | .privately => Text.nonBlank s.host.server.privateAddress
  | .unknown => none

/-- Where `requester` sends packets for a station, if both an address and a port are set. -/
def endpointFor (s requester : Station) : Option Endpoint :=
  match s.addressFor requester, s.host.listenPort with
  | some address, some port => some ⟨address, port⟩
  | _, _ => none

/-- The public key that peers are given. It belongs to the private key; the public key that the
host carries is not looked at. -/
def announcedKey (s : Station) : Option String :=
  (Text.nonBlank s.host.privateKey).bind fun k => (publicTextFor k).toOption

/-- The addresses whose packets go to a station. -/
def allowedIps (s : Station) : List String :=
  (Text.nonBlank s.host.address).toList

/-- A station as `requester` is to reach it, with the key that peers are given. -/
def peerWith (s : Station) (key : Option String) (requester : Station)
    (keepalive : Option UInt16) : Peer where
  name := s.hostname
  endpoint := s.endpointFor requester
  publicKey := key
  allowedIps := s.allowedIps
  persistentKeepalive := keepalive

/-- A station as `requester` is to reach it. -/
def peer (s requester : Station) (keepalive : Option UInt16) : Peer :=
  s.peerWith s.announcedKey requester keepalive

/-- The interface of a station's host. -/
def interface (s : Station) : Interface where
  name := s.hostname
  address := s.host.address
  listenPort := s.host.listenPort
  privateKey := s.host.privateKey
  dns := s.host.dns
  table := s.host.table
  mtu := s.host.mtu
  preUp := s.host.preUp
  postUp := s.host.postUp
  preDown := s.host.preDown
  postDown := s.host.postDown

end Station

/-- The stations of a topology, group by group. -/
def Topology.stations (t : Topology) : List Station :=
  (t.groups.mapIdx fun i g => g.hosts.mapIdx fun j h => Station.ofHost h i g j).flatten

end TunnelMesh
