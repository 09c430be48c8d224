import Mathlib
import TunnelMesh.Proofs.Mesh.Stations
import TunnelMesh.Proofs.Net.Bits
import TunnelMesh.Proofs.Net.Subnet

/-!
# Where packets go

The addresses whose packets go to a peer are written as the host's own address is. An address that
a host declares is kept as it is written, and if a length stands behind it, the packets for all
members of that subnet go to the host. So where the usable addresses that hosts declare differ, the
packets for an address go to one peer at most only if no such subnet has the address of another host
(`Mesh.routes_disjoint_iff`); `nestedMesh` is one in which the packets for a host go to two peers.
-/

namespace TunnelMesh

/-! ## Declared addresses -/

/-- No two hosts declare one usable address. -/
def Topology.DeclaresApart (t : Topology) (s : Subnet) : Prop :=
  ∀ (i j : Nat) (h h' : Host) (a : Ipv4), i ≠ j → t.hosts[i]? = some h → t.hosts[j]? = some h' →
    h.DeclaresAddress a → h'.DeclaresAddress a → s.isUsable a = false

/-- Where the addresses that are read differ, no two hosts declare one. -/
theorem Topology.declaresApart_of_nodup {t : Topology}
    (h : (t.hosts.filterMap Host.declared?).Nodup) (s : Subnet) : t.DeclaresApart s := by
  intro i j host host' a hij hi hj ha ha'
  rw [List.Nodup, List.pairwise_filterMap, List.pairwise_iff_getElem] at h
  rw [← Host.declared?_eq_some] at ha ha'
  obtain ⟨hilt, rfl⟩ := List.getElem?_eq_some_iff.1 hi
  obtain ⟨hjlt, rfl⟩ := List.getElem?_eq_some_iff.1 hj
  rcases Nat.lt_or_gt_of_ne hij with hlt | hlt
  · exact absurd rfl (h i j hilt hjlt hlt a ha a ha')
  · exact absurd rfl (h j i hjlt hilt hlt a ha' a ha)

/-! ## Subnets of compiled hosts -/

/-- What a host of a topology is given: it keeps the subnet that it declares, if the address is
usable, and is given the next free address alone, if it waits for one. -/
inductive Topology.Gives (t : Topology) (s : Subnet) (free : List Ipv4) (i : Nat) (h : Host) :
    Subnet → Prop
  | kept {b : Subnet} : h.Declares b → s.isUsable b.address = true → Gives t s free i h b
  | given {a : Ipv4} : h.awaitsAddress s = true → free[waitingBefore s t.hosts i]? = some a →
      Gives t s free i h (.single a)

namespace Topology.Gives

variable {t : Topology} {p : Pool} {i j : Nat} {h h' : Host} {b b' : Subnet}

/-- The address of a host is usable. -/
theorem isUsable (hp : p.claimed = []) (hb : t.Gives p.subnet (t.freeAddresses p) i h b) :
    p.subnet.isUsable b.address = true := by
  cases hb with
  | kept _ husable => exact husable
  | given _ hfree => exact ((mem_freeAddresses hp).1 (List.mem_of_getElem? hfree)).1

/-- A free address is declared by no host. -/
theorem address_ne_of_given (hp : p.claimed = []) (hi : t.hosts[i]? = some h)
    (hb : h.Declares b) {a : Ipv4} (ha : a ∈ t.freeAddresses p) : b.address ≠ a := by
  rintro rfl
  exact ((mem_freeAddresses hp).1 ha).2 h (List.mem_of_getElem? hi) ⟨b, hb, rfl⟩

/-- A host with a usable declared address keeps what it declares. -/
theorem declares {s : Subnet} {free : List Ipv4} (hb : t.Gives s free i h b)
    (husable : h.DeclaresUsable s) : h.Declares b := by
  cases hb with
  | kept hdeclares _ => exact hdeclares
  | given hwaits _ => exact absurd husable (Host.awaitsAddress_eq_true.1 hwaits).2

/-- Every other host has an address alone. -/
theorem length_eq {s : Subnet} {free : List Ipv4} (hb : t.Gives s free i h b)
    (hnone : ¬ h.DeclaresUsable s) : b.length = 32 := by
  cases hb with
  | kept hdeclares husable => exact absurd ⟨b.address, ⟨b, hdeclares, rfl⟩, husable⟩ hnone
  | given _ _ => rfl

/-- Where the usable addresses that hosts declare differ, those of all hosts do. -/
theorem address_ne (hp : p.claimed = []) (hapart : t.DeclaresApart p.subnet) (hij : i ≠ j)
    (hi : t.hosts[i]? = some h) (hj : t.hosts[j]? = some h')
    (hb : t.Gives p.subnet (t.freeAddresses p) i h b)
    (hb' : t.Gives p.subnet (t.freeAddresses p) j h' b') : b.address ≠ b'.address := by
  cases hb with
  | kept hdeclares husable =>
    cases hb' with
    | kept hdeclares' _ =>
      intro heq
      have hunusable := hapart i j h h' b.address hij hi hj ⟨b, hdeclares, rfl⟩
        ⟨b', hdeclares', heq.symm⟩
      rw [husable] at hunusable
      cases hunusable
    | given _ hfree' =>
      exact address_ne_of_given hp hi hdeclares (List.mem_of_getElem? hfree')
  | @given a hwaits hfree =>
    cases hb' with
    | kept hdeclares' _ =>
      exact (address_ne_of_given hp hj hdeclares' (List.mem_of_getElem? hfree)).symm
    | @given a' hwaits' hfree' =>
      -- one address would stand at two positions of the ascending list of free ones
      have hnodup : (t.freeAddresses p).Nodup :=
        (Pool.free_ascending _).imp fun hlt heq => (heq ▸ hlt).ne rfl
      intro heq
      obtain rfl : a = a' := heq
      have hsame : waitingBefore p.subnet t.hosts i = waitingBefore p.subnet t.hosts j :=
        (List.getElem?_inj (List.getElem?_eq_some_iff.1 hfree).1 hnodup).1
          (hfree.trans hfree'.symm)
      rcases Nat.lt_or_gt_of_ne hij with hlt | hlt
      · exact absurd hsame (waitingBefore_lt hlt hi hwaits).ne
      · exact absurd hsame (waitingBefore_lt hlt hj hwaits').ne'

end Topology.Gives

namespace Host

/-- A trimmed host declares what the host does. -/
theorem Declares.trimmed {h : Host} {b : Subnet} (hb : h.Declares b) : h.trimmed.Declares b := by
  obtain ⟨text, htext, hwritten⟩ := hb
  refine ⟨Text.trim text, ?_, ?_⟩
  · rw [Host.trimmed, htext, Option.map_some]
  · rwa [Text.trim_trim]

/-- Keys and defaults do not change what a host declares. -/
theorem Declares.settled {h : Host} {b : Subnet} (hb : h.Declares b) (d : Defaults) (draw : Draw) :
    (h.settled d draw).Declares b := by
  rwa [Declares, address_settled]

end Host

/-- Where the free addresses reach for all waiting hosts, every host that does not ignore the
defaults is given a subnet, and its address is written as that subnet then. -/
theorem Topology.exists_gives {t : Topology} {s : Subnet} {free : List Ipv4}
    (hle : t.hosts.countP (·.awaitsAddress s) ≤ free.length) {i : Nat} {h : Host}
    (hi : t.hosts[i]? = some h) (hignore : h.ignoreDefault = false) :
    ∃ b, t.Gives s free i h b ∧
      (h.trimmed.withAddressAt s free (waitingBefore s t.hosts i)).Declares b := by
  cases hwaits : h.awaitsAddress s with
  | false =>
    obtain ⟨_, ⟨b, hb, rfl⟩, husable⟩ : h.DeclaresUsable s :=
      (Host.awaitsAddress_eq_false.1 hwaits).resolve_left (by simp [hignore])
    refine ⟨b, .kept hb husable, ?_⟩
    rw [Host.withAddressAt_of_not_awaits (by rw [Host.awaitsAddress_trimmed, hwaits])]
    exact hb.trimmed
  | true =>
    have hlt := waitingBefore_lt_of_countP_le hle hi hwaits
    have hfree := List.getElem?_eq_getElem hlt
    refine ⟨_, .given hwaits hfree, ?_⟩
    rw [Host.withAddressAt, Host.awaitsAddress_trimmed, if_pos hwaits, hfree]
    refine ⟨_, rfl, ?_⟩
    rw [Ipv4.trim_text, Ipv4.toList_text]
    exact Subnet.writtenAs_of_parse? (Ipv4.parse?_chars _)

/-! ## Routes -/

/-- The packets for an address go to a peer. -/
def Peer.Routes (p : Peer) (a : Ipv4) : Prop :=
  ∃ entry ∈ p.allowedIps, ∃ b : Subnet, b.WrittenAs entry.toList ∧ b.Covers a

/-- The packets for the members of a subnet, and no others, go to the peer of a host: of the subnet
that the host declares, if the address is usable in the mesh's subnet `s`, and of a single address
otherwise. -/
structure Peer.RoutesFor (p : Peer) (s : Subnet) (h : Host) (b : Subnet) : Prop where
  name_eq : p.name = h.trimmedName
  routes_iff : ∀ a, p.Routes a ↔ b.Covers a
  isUsable : s.isUsable b.address = true
  declares : h.DeclaresUsable s → h.Declares b
  length_eq : ¬ h.DeclaresUsable s → b.length = 32

/-- The packets for the subnet that a station's host declares go to the station. -/
theorem Station.routes_peer_iff {s : Station} {b : Subnet} (hb : s.host.Declares b)
    (requester : Station) (keepalive : Option UInt16) (a : Ipv4) :
    (s.peer requester keepalive).Routes a ↔ b.Covers a := by
  obtain ⟨text, htext, hwritten⟩ := hb
  have hentry : (s.peer requester keepalive).allowedIps = [Text.trim text] := by
    have hshown := Text.nonBlank_eq_some.2 ⟨text, htext, hwritten.not_isBlankText, rfl⟩
    exact congrArg Option.toList hshown
  rw [Peer.Routes, hentry]
  simp only [List.mem_singleton, exists_eq_left]
  constructor
  · rintro ⟨b', hwritten', hcovers⟩
    rwa [hwritten.unique hwritten']
  · intro hcovers
    exact ⟨b, hwritten, hcovers⟩

namespace Mesh

variable {t : Topology} {d : Defaults} {draws : Draws} {m : Mesh} {name : String} {c : Config}

/-- The configuration of a host stands under its trimmed name. -/
theorem exists_mem_configs (h : compile t d draws = .ok m)
    (hname : name ∈ t.hosts.map (·.trimmedName)) : ∃ c, (name, c) ∈ m.configs := by
  rw [← map_fst_configs h, List.mem_map] at hname
  obtain ⟨⟨_, c⟩, hc, rfl⟩ := hname
  exact ⟨c, hc⟩

/-- A configuration has the peer of a host at the position of the host. -/
theorem exists_getElem?_peers (hc : (name, c) ∈ m.configs) {i : Nat} {r : Host}
    (hr : m.topology.hosts[i]? = some r) : ∃ s requester : Station, s.host = r ∧
      c.peers[i]? = some (s.peer requester m.persistentKeepalive) := by
  rw [configs_eq, List.mem_map] at hc
  obtain ⟨requester, -, hsame⟩ := hc
  obtain rfl : m.config requester = c := congrArg Prod.snd hsame
  rw [← Topology.map_host_stations, List.getElem?_map, Option.map_eq_some_iff] at hr
  obtain ⟨s, hs, rfl⟩ := hr
  refine ⟨s, requester, rfl, ?_⟩
  rw [peers_config, stations, List.getElem?_map, hs, Option.map_some]

/-- Every host that does not ignore the defaults is given a subnet, and in every configuration the
packets for its members go to the host. -/
theorem exists_gives (h : compile t d draws = .ok m) : ∃ p : Pool,
    (t.withDefaultSubnet d).pool = .ok p ∧ p.subnet = m.subnet ∧
      ∀ (i : Nat) (host : Host), t.hosts[i]? = some host → host.ignoreDefault = false →
        ∃ b, t.Gives p.subnet (t.freeAddresses p) i host b ∧ ∀ name c, (name, c) ∈ m.configs →
          ∃ peer, c.peers[i]? = some peer ∧ peer.RoutesFor p.subnet host b := by
  obtain ⟨p, hpool, hsubnet, hle, hhosts⟩ := hosts_of_compile h
  have hp := Topology.claimed_pool hpool
  rw [← hsubnet] at hhosts hle
  refine ⟨p, hpool, hsubnet, fun i host hi hignore => ?_⟩
  obtain ⟨b, hb, hdeclares⟩ := Topology.exists_gives hle hi hignore
  refine ⟨b, hb, fun name c hc => ?_⟩
  have hr : m.topology.hosts[i]? = some ((host.trimmed.withAddressAt p.subnet (t.freeAddresses p)
      (waitingBefore p.subnet t.hosts i)).settled d (draws i)) := by
    rw [hhosts, List.getElem?_mapIdx, hi, Option.map_some]
  obtain ⟨s, requester, hs, hpeer⟩ := exists_getElem?_peers hc hr
  refine ⟨_, hpeer, ?_, Station.routes_peer_iff (hs ▸ hdeclares.settled d (draws i)) _ _,
    hb.isUsable hp, hb.declares, hb.length_eq⟩
  show s.host.server.hostname = host.trimmed.server.hostname
  rw [hs, Host.server_settled, Host.server_withAddressAt]

/-- Two hosts of a compiled mesh in which the usable declared addresses differ: in every
configuration the packets for an address go to one of their peers at most, just when the addresses
of the hosts differ within the bits that the members of both subnets share. A length stands behind a
declared address only, so the packets are told apart where hosts declare addresses alone. -/
theorem routes_disjoint_iff (h : compile t d draws = .ok m) (hapart : t.DeclaresApart m.subnet)
    (hc : (name, c) ∈ m.configs) {i j : Nat} {host host' : Host} (hij : i ≠ j)
    (hi : t.hosts[i]? = some host) (hj : t.hosts[j]? = some host')
    (hignore : host.ignoreDefault = false) (hignore' : host'.ignoreDefault = false) :
    ∃ p p' b b', c.peers[i]? = some p ∧ c.peers[j]? = some p' ∧
      p.RoutesFor m.subnet host b ∧ p'.RoutesFor m.subnet host' b' ∧ b.address ≠ b'.address ∧
      ((∀ a, ¬ (p.Routes a ∧ p'.Routes a)) ↔
        ¬ Ipv4.Shares (min b.length b'.length) b.address b'.address) ∧
      (b.length = 32 → b'.length = 32 → ∀ a, ¬ (p.Routes a ∧ p'.Routes a)) := by
  obtain ⟨pool, hpool, hsubnet, hgives⟩ := exists_gives h
  rw [← hsubnet] at hapart ⊢
  obtain ⟨b, hb, hpeers⟩ := hgives i host hi hignore
  obtain ⟨b', hb', hpeers'⟩ := hgives j host' hj hignore'
  obtain ⟨p, hpeer, hroutes⟩ := hpeers name c hc
  obtain ⟨p', hpeer', hroutes'⟩ := hpeers' name c hc
  have hne := Topology.Gives.address_ne (Topology.claimed_pool hpool) hapart hij hi hj hb hb'
  have hdisjoint : (∀ a, ¬ (p.Routes a ∧ p'.Routes a)) ↔
      ¬ Ipv4.Shares (min b.length b'.length) b.address b'.address := by
    simp only [hroutes.routes_iff, hroutes'.routes_iff]
    rw [← Subnet.exists_covers_iff, not_exists]
  refine ⟨p, p', b, b', hpeer, hpeer', hroutes, hroutes', hne, hdisjoint, fun hall hall' => ?_⟩
  rw [hdisjoint, hall, hall', Nat.min_self, Ipv4.shares_all_iff]
  exact hne

/-- The packets for two hosts of the mesh of four: one waits for an address, the other declares an
address with a length. -/
theorem routes_disjoint_iff_mixedMesh : ∃ m c, compile mixedMesh {} (Draw.expand []) = .ok m ∧
    mixedMesh.DeclaresApart m.subnet ∧ ("a1", c) ∈ m.configs ∧
      ∃ p p' b b', c.peers[0]? = some p ∧ c.peers[1]? = some p' ∧
        p.RoutesFor m.subnet { server := { hostname := "a1" } } b ∧
        p'.RoutesFor m.subnet
          { server := { hostname := "a2" }, address := some " 10.0.0.2/24 " } b' ∧
        ((∀ a, ¬ (p.Routes a ∧ p'.Routes a)) ↔
          ¬ Ipv4.Shares (min b.length b'.length) b.address b'.address) := by
  obtain ⟨m, hm⟩ := exists_compile_mixedMesh none (Draw.expand [])
  have hdeclared : (mixedMesh.hosts.filterMap Host.declared?).Nodup := by decide
  have hapart := Topology.declaresApart_of_nodup hdeclared m.subnet
  have hname : "a1" ∈ mixedMesh.hosts.map (·.trimmedName) := by decide
  obtain ⟨c, hc⟩ := exists_mem_configs hm hname
  obtain ⟨p, p', b, b', hp, hp', hroutes, hroutes', -, hdisjoint, -⟩ :=
    routes_disjoint_iff hm hapart hc Nat.zero_ne_one rfl rfl rfl rfl
  exact ⟨m, c, hm, hapart, hc, p, p', b, b', hp, hp', hroutes, hroutes', hdisjoint⟩

/-- A mesh of two hosts with different addresses, of which one has a length behind it. -/
def nestedMesh : Topology where
  name := "nested"
  address := some "10.0.0.0/24"
  groups := [
    { name := "a", visibility := .openNat, hosts := [
      { server := { hostname := "a1" }, address := some "10.0.0.1" },
      { server := { hostname := "a2" }, address := some "10.0.0.2/24" }] }]

/-- The packets for the one host go to both peers. -/
theorem routes_overlap_nestedMesh : ∃ m c, compile nestedMesh {} (Draw.expand []) = .ok m ∧
    nestedMesh.DeclaresApart m.subnet ∧ (∀ host ∈ nestedMesh.hosts, host.ignoreDefault = false) ∧
      ("a1", c) ∈ m.configs ∧ ∃ p p', c.peers[0]? = some p ∧ c.peers[1]? = some p' ∧
        p.Routes (Ipv4.ofOctets 10 0 0 1) ∧ p'.Routes (Ipv4.ofOctets 10 0 0 1) := by
  have hpool : (nestedMesh.withDefaultSubnet {}).pool =
      .ok (Pool.ofSubnet ⟨Ipv4.ofOctets 10 0 0 0, 24, by decide⟩) := by decide
  have hsome : ∃ m, compile nestedMesh {} (Draw.expand []) = .ok m :=
    exists_compile_eq_ok.2 ⟨_, hpool, by decide, by decide +kernel⟩
  have hname : "a1" ∈ nestedMesh.hosts.map (·.trimmedName) := by decide
  have hdeclared : (nestedMesh.hosts.filterMap Host.declared?).Nodup := by decide
  obtain ⟨m, hm⟩ := hsome
  obtain ⟨c, hc⟩ := exists_mem_configs hm hname
  refine ⟨m, c, hm, Topology.declaresApart_of_nodup hdeclared _, by decide, hc, ?_⟩
  obtain ⟨pool, hpool', -, hgives⟩ := exists_gives hm
  obtain rfl := Except.ok.inj (hpool.symm.trans hpool')
  obtain ⟨b, -, hpeers⟩ := hgives 0 _ rfl rfl
  obtain ⟨b', -, hpeers'⟩ := hgives 1 _ rfl rfl
  obtain ⟨p, hp, hroutes⟩ := hpeers _ c hc
  obtain ⟨p', hp', hroutes'⟩ := hpeers' _ c hc
  have hb : (Subnet.single (.ofOctets 10 0 0 1)).WrittenAs (Text.trim "10.0.0.1").toList :=
    Subnet.writtenAs_of_parse? (by decide)
  have hb' : Subnet.WrittenAs ⟨.ofOctets 10 0 0 2, 24, by decide⟩
      (Text.trim "10.0.0.2/24").toList :=
    .cidr (Subnet.parse?_eq_some.1 (by decide))
  obtain rfl := (hroutes.declares (by decide)).unique ⟨_, rfl, hb⟩
  obtain rfl := (hroutes'.declares (by decide)).unique ⟨_, rfl, hb'⟩
  refine ⟨p, p', hp, hp', (hroutes.routes_iff _).2 (Subnet.covers_address _),
    (hroutes'.routes_iff _).2 ?_⟩
  rw [Subnet.Covers, Ipv4.shares_iff_div_eq (by decide)]
  decide

end Mesh

end TunnelMesh
