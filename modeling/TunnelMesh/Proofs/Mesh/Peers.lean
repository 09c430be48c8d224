import Mathlib
import TunnelMesh.Proofs.Mesh.Stability
import TunnelMesh.Proofs.Mesh.Stations

/-!
# Peers agree with the hosts they stand for

Every configuration of a compiled mesh lists every host of the mesh at its position in the topology,
and what it says of a host is what that host's own configuration says (`Mesh.peers_agree`): the key
belongs to the host's private key, the packets for the host's address go to it, and the endpoint has
the host's port. Which of the host's addresses the endpoint has depends on the names of the two
groups only, and on whether the host relays for its own.
-/

namespace TunnelMesh

/-- A peer stands for a host whose own configuration is `c`. The two propositions say that the
host's group has the name of the requester's group, and that the host relays for its group. -/
structure Peer.StandsFor (p : Peer) (host : Host) (c : Config) (sameGroup relays : Prop) :
    Prop where
  name : p.name = host.hostname
  /-- There is a public key just when the interface has a private key of 32 bytes. -/
  publicKey_isSome : p.publicKey.isSome = true ↔
    ∃ text q, c.interface.privateKey = some text ∧ PrivateKey.parse text = .ok q
  /-- The public key belongs to the private key of the interface. -/
  publicKey_eq : ∀ key, p.publicKey = some key → ∃ text q, c.interface.privateKey = some text ∧
    PrivateKey.parse text = .ok q ∧ q.publicKey.text = key ∧ publicTextFor text = .ok key
  /-- The packets for the interface's address go to the peer. -/
  allowedIps_eq : ∀ a, c.interface.address = some a → Text.trim a ≠ "" → p.allowedIps = [a]
  allowedIps_eq_nil : p.allowedIps = [] ↔ Text.IsOpen c.interface.address
  /-- Hosts of groups of other names are reached on the public address. -/
  endpoint_public : ¬ sameGroup → ∀ e, p.endpoint = some e ↔
    Text.shown host.server.publicAddress = some e.host ∧ c.interface.listenPort = some e.port
  /-- Hosts of groups of the same name are reached on the private address. -/
  endpoint_private : sameGroup → ¬ relays → ∀ e, p.endpoint = some e ↔
    Text.shown host.server.privateAddress = some e.host ∧ c.interface.listenPort = some e.port
  /-- The relay of a group is not reached from groups of its name. -/
  endpoint_relay : sameGroup → relays → p.endpoint = none

namespace Station

variable {s : Station}

/-- What a station tells its peers is what its own interface says, if its address has no blanks at
its ends. -/
theorem peer_standsFor (ht : s.host.address.map Text.trim = s.host.address)
    (requester : Station) (keepalive : Option UInt16) {c : Config}
    (hc : c.interface = s.interface) :
    (s.peer requester keepalive).StandsFor s.host c (s.groupName = requester.groupName)
      (s.isRelay = true) where
  name := rfl
  publicKey_isSome := by
    rw [hc]
    exact announcedKey_isSome
  publicKey_eq := by
    rw [hc]
    intro key hkey
    obtain ⟨text, q, htext, hq, rfl⟩ := announcedKey_eq_some.1 hkey
    exact ⟨text, q, htext, hq, rfl, publicTextFor_eq_ok.2 ⟨q, hq, rfl⟩⟩
  allowedIps_eq := by
    rw [hc]
    intro a ha hset
    have ha' : s.host.address = some a := ha
    have htrim : Text.trim a = a := by rwa [ha', Option.map_some, Option.some.injEq] at ht
    show s.allowedIps = [a]
    rw [allowedIps, ha', Text.nonBlank_eq_shown, Text.shown, Text.trimmed, Option.getD_some,
      if_neg hset, htrim, Option.toList_some]
  allowedIps_eq_nil := by
    rw [hc, Text.isOpen_iff]
    exact Option.toList_eq_nil_iff
  endpoint_public := by
    rw [hc]
    intro hother e
    have hreach : s.reachedAt requester = Text.shown s.host.server.publicAddress := by
      rw [reachedAt, if_pos hother]
    exact endpointFor_eq_some.trans (by rw [hreach]; rfl)
  endpoint_private := by
    rw [hc]
    intro hsame hrelay e
    have hreach : s.reachedAt requester = Text.shown s.host.server.privateAddress := by
      rw [reachedAt, if_neg (not_not.2 hsame), if_neg hrelay]
    exact endpointFor_eq_some.trans (by rw [hreach]; rfl)
  endpoint_relay := by
    intro hsame hrelay
    have hreach : s.addressFor requester = none := by
      rw [addressFor_eq_reachedAt, reachedAt, if_neg (not_not.2 hsame), if_pos hrelay]
    show s.endpointFor requester = none
    rw [endpointFor, hreach]

end Station

/-- Every host's configuration lists every host at its position in the topology, as a peer that
stands for it. -/
theorem Mesh.peers_agree {t : Topology} {d : Defaults} {draws : Draws} {m : Mesh}
    (h : compile t d draws = .ok m) {groupA positionA groupB positionB : Nat} {gA gB : Group}
    {A B : Host} (hgA : m.topology.groups[groupA]? = some gA) (hA : gA.hosts[positionA]? = some A)
    (hgB : m.topology.groups[groupB]? = some gB) (hB : gB.hosts[positionB]? = some B) :
    ∃ cA cB p, m.configFor A.hostname = some cA ∧ m.configFor B.hostname = some cB ∧
      cA.peers[m.topology.hostsBefore groupB positionB]? = some p ∧
        p.StandsFor B cB (gB.name = gA.name) (positionB = 0 ∧ gB.visibility = .relayed) := by
  have hsA : m.stations[m.topology.hostsBefore groupA positionA]? =
      some (.ofHost A groupA gA positionA) := Topology.getElem?_stations hgA hA
  have hsB : m.stations[m.topology.hostsBefore groupB positionB]? =
      some (.ofHost B groupB gB positionB) := Topology.getElem?_stations hgB hB
  have hmemB : B ∈ m.topology.hosts :=
    List.mem_flatMap.2 ⟨gB, List.mem_of_getElem? hgB, List.mem_of_getElem? hB⟩
  refine ⟨_, _, (Station.ofHost B groupB gB positionB).peer (.ofHost A groupA gA positionA)
    m.persistentKeepalive, configFor_hostname h (List.mem_of_getElem? hsA),
    configFor_hostname h (List.mem_of_getElem? hsB), ?_, ?_⟩
  · rw [peers_config, List.getElem?_map, hsB, Option.map_some]
  · rw [← Station.isRelay_ofHost B groupB]
    exact Station.peer_standsFor (isSettled_of_compile h hmemB).isTrimmed.address _ _ rfl

/-- The relay of a group, as the other host of the group sees it. -/
theorem Mesh.peers_agree_mixedMesh : ∃ m g A B cA cB p,
    compile mixedMesh {} (Draw.expand []) = .ok m ∧ m.topology.groups[0]? = some g ∧
      g.hosts[1]? = some A ∧ g.hosts[0]? = some B ∧ m.configFor A.hostname = some cA ∧
        m.configFor B.hostname = some cB ∧ cA.peers[0]? = some p ∧ p.name = B.hostname ∧
          p.endpoint = none := by
  obtain ⟨m, hm⟩ := exists_compile_mixedMesh none (Draw.expand [])
  have hfirst : (m.topology.groups.map Topology.shape)[0]? = some ("a", .relayed, 2) := by
    rw [map_shape_groups_of_compile hm]
    rfl
  rw [List.getElem?_map, Option.map_eq_some_iff] at hfirst
  obtain ⟨g, hg, hshape⟩ := hfirst
  simp only [Topology.shape, Prod.mk.injEq] at hshape
  obtain ⟨-, hrelayed, hlength⟩ := hshape
  have hA : g.hosts[1]? = some g.hosts[1] := List.getElem?_eq_getElem (by omega)
  have hB : g.hosts[0]? = some g.hosts[0] := List.getElem?_eq_getElem (by omega)
  obtain ⟨cA, cB, p, hcA, hcB, hp, hstands⟩ := peers_agree hm hg hA hg hB
  exact ⟨m, g, _, _, cA, cB, p, hm, hg, hA, hB, hcA, hcB, hp, hstands.name,
    hstands.endpoint_relay rfl ⟨rfl, hrelayed⟩⟩

end TunnelMesh
