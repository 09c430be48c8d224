import Mathlib
import TunnelMesh.Proofs.Mesh.Stations

/-!
# What a configuration does not tell

A station is shown to another one by its name, its address in the mesh, the public key of its
private key and one endpoint. Two stations that agree in these are alike to the other one
(`Station.AlikeTo`): the private key itself is not shown, nor the public key that is stored with it,
nor any setting of the host's own interface, nor the address that is for other groups. So the
configuration of a host does not change when another host is replaced by one that is alike to it
(`Mesh.config_eq_of_alikeTo`).
-/

namespace TunnelMesh

namespace Station

/-- Two stations that a third one, the requester, is not to tell apart. Whatever is not named here
may differ, and some settings have to agree only where the requester uses them. -/
structure AlikeTo (requester s s' : Station) : Prop where
  hostname : s'.hostname = s.hostname
  groupName : s'.groupName = s.groupName
  isRelay : s'.isRelay = s.isRelay
  /-- The address in the mesh. -/
  address : s'.host.address = s.host.address
  /-- The private keys have one public key, or neither has any. -/
  announces : ∀ key, s'.host.Announces key ↔ s.host.Announces key
  /-- The port is not used for the relay of the requester's own group. -/
  listenPort : ¬ (s.groupName = requester.groupName ∧ s.isRelay = true) →
    s'.host.listenPort = s.host.listenPort
  /-- The public address is for requesters of other groups. -/
  publicAddress : s.groupName ≠ requester.groupName →
    s'.host.server.publicAddress = s.host.server.publicAddress
  /-- The private address is for requesters of the own group, the relay's for nobody. -/
  privateAddress : s.groupName = requester.groupName → s.isRelay = false →
    s'.host.server.privateAddress = s.host.server.privateAddress

namespace AlikeTo

variable {requester s s' : Station}

/-- Stations that are alike to a requester are reached in the same way by it. -/
theorem reach_eq (h : requester.AlikeTo s s') : s'.reach requester = s.reach requester := by
  rw [reach, reach, h.groupName, h.isRelay]

/-- Alike stations are reached at one endpoint. -/
theorem endpointFor_eq (h : requester.AlikeTo s s') :
    s'.endpointFor requester = s.endpointFor requester := by
  rw [endpointFor, endpointFor, addressFor, addressFor, h.reach_eq]
  by_cases hgroup : s.groupName = requester.groupName
  · cases hrelay : s.isRelay with
    | true => rw [reach, if_neg (not_not.2 hgroup), if_pos hrelay]
    | false =>
      rw [h.listenPort (by simp [hrelay]), h.privateAddress hgroup hrelay, reach,
        if_neg (not_not.2 hgroup), if_neg (by simp [hrelay])]
  · rw [h.listenPort fun hrelay => hgroup hrelay.1, h.publicAddress hgroup, reach, if_pos hgroup]

/-- Alike stations announce one key. -/
theorem announcedKey_eq (h : requester.AlikeTo s s') : s'.announcedKey = s.announcedKey :=
  Option.ext fun key => by rw [announcedKey_eq_some, announcedKey_eq_some, h.announces]

/-- Alike stations are one peer. -/
theorem peer_eq (h : requester.AlikeTo s s') (keepalive : Option UInt16) :
    s'.peer requester keepalive = s.peer requester keepalive := by
  rw [peer, peer, peerWith, peerWith, h.endpointFor_eq, h.announcedKey_eq, h.hostname, allowedIps,
    allowedIps, h.address]

end AlikeTo

end Station

namespace Mesh

variable {m m' : Mesh} {i j : Nat} {A B B' : Station}

/-- The configurations of a mesh, by the positions of its stations. -/
theorem getElem?_configs (hA : m.stations[i]? = some A) :
    m.configs[i]? = some (A.hostname, m.config A) := by
  rw [configs_eq, List.getElem?_map, hA, Option.map_some]

/-- A host's configuration and file stay as they are when another host is replaced by one that is
alike to it. -/
theorem config_eq_of_alikeTo (hA : m.stations[i]? = some A) (hB : m.stations[j]? = some B)
    (hij : i ≠ j) (halike : A.AlikeTo B B') (hstations : m'.stations = m.stations.set j B')
    (hname : m'.topology.name = m.topology.name)
    (hkeepalive : m'.persistentKeepalive = m.persistentKeepalive) :
    m.configs[i]? = some (A.hostname, m.config A) ∧
      m'.configs[i]? = some (A.hostname, m.config A) ∧ (m'.config A).ini = (m.config A).ini := by
  have hpeers : m'.stations.map (fun peer => peer.peer A m.persistentKeepalive) =
      m.stations.map fun peer => peer.peer A m.persistentKeepalive := by
    rw [hstations]
    refine List.ext_getElem? fun k => ?_
    rw [List.getElem?_map, List.getElem?_map, List.getElem?_set]
    split
    · next hjk =>
      subst hjk
      rw [hB, if_pos (List.getElem?_eq_some_iff.1 hB).1, Option.map_some, Option.map_some,
        halike.peer_eq]
    · rfl
  have hconfig : m'.config A = m.config A := by
    rw [config_eq, config_eq, hname, hkeepalive, hpeers]
  have hA' : m'.stations[i]? = some A := by
    rw [hstations, List.getElem?_set_ne hij.symm, hA]
  exact ⟨getElem?_configs hA, hconfig ▸ getElem?_configs hA', by rw [hconfig]⟩

/-- A host of two addresses and a key, with more to itself than hosts of other groups see. -/
def guardedHost (privateAddress privateKey : String) (dns : List String) : Host where
  server := {
    hostname := "b1", publicAddress := some "203.0.113.7", privateAddress := some privateAddress }
  address := some "10.0.0.2"
  privateKey := some privateKey
  listenPort := some 51820
  dns := dns

/-- A host without settings, and the only one of its group. -/
def plainStation : Station where
  host := { server := { hostname := "a1" } }
  groupIndex := 0
  groupName := "a"
  visibility := .openNat
  isRelay := false

/-- The host of another group, which relays for it. -/
def guardedStation (b : Host) : Station where
  host := b
  groupIndex := 1
  groupName := "b"
  visibility := .relayed
  isRelay := true

/-- A mesh of these two. -/
def guardedMesh (b : Host) : Mesh where
  topology := {
    groups := [
      { name := "a", visibility := .openNat, hosts := [plainStation.host] },
      { name := "b", visibility := .relayed, hosts := [b] }] }
  subnet := ⟨Ipv4.ofOctets 10 0 0 0, 30, by decide⟩
  rotations := []
  persistentKeepalive := none

/-- The stations of the mesh in order. -/
theorem stations_guardedMesh (b : Host) :
    (guardedMesh b).stations = [plainStation, guardedStation b] := rfl

/-- Another private address, other name servers and blanks around the private key of the second
host are not seen by the first one. -/
theorem config_eq_of_alikeTo_guardedMesh :
    let b := guardedHost "192.168.0.7" "kG6Mhn0emz+SyzstvVcgukgG6KmX4qZw6rWYf94LTYg=" []
    let b' := guardedHost "192.168.0.8" " kG6Mhn0emz+SyzstvVcgukgG6KmX4qZw6rWYf94LTYg= "
      ["10.0.0.53"]
    plainStation.AlikeTo (guardedStation b) (guardedStation b') ∧
      ((guardedMesh b').config plainStation).ini = ((guardedMesh b).config plainStation).ini := by
  intro b b'
  have htrim : Text.trim " kG6Mhn0emz+SyzstvVcgukgG6KmX4qZw6rWYf94LTYg= " =
      Text.trim "kG6Mhn0emz+SyzstvVcgukgG6KmX4qZw6rWYf94LTYg=" := by decide +kernel
  have hread := congrArg PrivateKey.parse htrim
  rw [PrivateKey.parse_trim, PrivateKey.parse_trim] at hread
  have halike : plainStation.AlikeTo (guardedStation b) (guardedStation b') := {
    hostname := rfl
    groupName := rfl
    isRelay := rfl
    address := rfl
    announces := fun key => by simp [Host.Announces, guardedStation, b, b', guardedHost, hread]
    listenPort := fun _ => rfl
    publicAddress := fun _ => rfl
    privateAddress := fun hsame => absurd hsame (by decide +kernel) }
  have hA : (guardedMesh b).stations[0]? = some plainStation := by rw [stations_guardedMesh]; rfl
  have hB : (guardedMesh b).stations[1]? = some (guardedStation b) := by
    rw [stations_guardedMesh]; rfl
  have hset : (guardedMesh b').stations = (guardedMesh b).stations.set 1 (guardedStation b') := by
    rw [stations_guardedMesh, stations_guardedMesh]; rfl
  exact ⟨halike, (config_eq_of_alikeTo hA hB (by decide) halike hset rfl rfl).2.2⟩

end Mesh

end TunnelMesh
