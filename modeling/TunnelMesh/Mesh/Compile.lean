import TunnelMesh.Config.Ini
import TunnelMesh.Mesh.Resolve
import TunnelMesh.Mesh.Station

/-!
# Compiling a mesh

A resolved topology becomes a mesh: the configuration of each host lists all hosts of the mesh as
peers, the host itself included, in the order of the topology. A configuration is looked up by the
name of its host.
-/

namespace TunnelMesh

/-- A compiled mesh. -/
structure Mesh where
  /-- The topology without gaps. -/
  topology : Topology
  subnet : Subnet
  /-- The hosts that were given new keys, in the order of the topology. -/
  rotations : List Rotation
  persistentKeepalive : Option UInt16
  deriving DecidableEq

namespace Mesh

/-- The mesh of a topology and defaults. -/
def compile (t : Topology) (d : Defaults) (draws : Draws) : Except MeshError Mesh := do
  let r ← t.resolve d draws
  return ⟨r.topology, r.subnet, r.rotations, d.persistentKeepalive⟩

/-! ## Pairs by name -/

/-- A list of pairs with one more pair, kept in the order of the names; a pair of the same name is
replaced. -/
def insertByName {α : Type} (name : String) (a : α) : List (String × α) → List (String × α)
  | [] => [(name, a)]
  | (n, b) :: rest =>
    if name < n then (name, a) :: (n, b) :: rest
    else if name = n then (name, a) :: rest
    else (n, b) :: insertByName name a rest

/-- Pairs in the order of their names; of pairs of one name, the last one counts. -/
def byName {α : Type} (pairs : List (String × α)) : List (String × α) :=
  pairs.foldl (fun acc (name, a) => insertByName name a acc) []

/-! ## Views -/

/-- The hosts of the mesh with their places. -/
def stations (m : Mesh) : List Station :=
  m.topology.stations

/-- The names of the hosts. -/
def hostnames (m : Mesh) : List String :=
  m.stations.map Station.hostname

/-- The names of the hosts that were given new keys. -/
def rekeyed (m : Mesh) : List String :=
  m.rotations.map Rotation.hostname

/-- The positions of the hosts by their names. -/
def index (m : Mesh) : List (String × Nat) :=
  byName (m.stations.mapIdx fun i s => (s.hostname, i))

/-- The host of a name: the one at the position that the index has for it. -/
def station? (m : Mesh) (hostname : String) : Option Station :=
  (m.index.lookup hostname).bind fun i => m.stations[i]?

/-- Every station with the key that its peers are given. -/
def announced (m : Mesh) : List (Station × Option String) :=
  m.stations.map fun s => (s, s.announcedKey)

/-- The configuration of a station, given all stations with their keys. -/
def configWith (m : Mesh) (announced : List (Station × Option String)) (s : Station) : Config where
  network := m.topology.name
  interface := s.interface
  peers := announced.map fun (peer, key) => peer.peerWith key s m.persistentKeepalive

/-- The configuration of a station. -/
def config (m : Mesh) (s : Station) : Config :=
  m.configWith m.announced s

/-- The configuration of the host of a name. -/
def configFor (m : Mesh) (hostname : String) : Option Config :=
  (m.station? hostname).map m.config

/-- The configurations of all hosts, with their names. -/
def configs (m : Mesh) : List (String × Config) :=
  let announced := m.announced
  m.stations.map fun s => (s.hostname, m.configWith announced s)

/-- The configurations of all hosts in the order of their names. -/
def configsByName (m : Mesh) : List (String × Config) :=
  byName m.configs

end Mesh

/-- The configuration files of all hosts of a request's mesh, with their names. -/
def Request.generate (r : Request) (draws : Draws) : Except MeshError (List (String × String)) := do
  let m ← Mesh.compile r.topology r.defaults draws
  return m.configs.map fun (name, c) => (name, c.ini)

end TunnelMesh
