import Mathlib
import TunnelMesh.Proofs.Mesh.Keys
import TunnelMesh.Proofs.Mesh.Stations

/-!
# What randomness reaches

What is drawn decides whether the keys of a host pass their probe, and it is what new keys are made
of. Two runs in which all probes end alike differ in nothing else (`Mesh.compile_sameButNewKeys`):
they fail with the same error, or the two meshes are one when the keys of the hosts that were given
new ones are hidden. Hiding keys before the configurations are made and after it comes to the same
(`Mesh.configsHidingKeys_hidingKeys`), since a key reaches only the interface of its host and the
peers that stand for it.

Draws belong to positions. That they come from one stream, of which each host takes as much as it
needs, is the case in which the draws of a host are what the hosts before it have left, and there is
no other one (`Mesh.compileFrom_eq`, `Mesh.exists_compileFrom_eq`).
-/

namespace TunnelMesh

/-! ## Hiding keys -/

/-- The host without its keys if its name is one of those given. -/
def Host.hidingKeys (names : List String) (h : Host) : Host :=
  if h.hostname ∈ names then { h with publicKey := none, privateKey := none } else h

/-- The topology without the keys of the hosts of the given names. -/
def Topology.hidingKeys (names : List String) (t : Topology) : Topology :=
  t.withHosts (t.hosts.map (Host.hidingKeys names))

/-- The interface without its private key if its name is one of those given. -/
def Interface.hidingKey (names : List String) (i : Interface) : Interface :=
  if i.name ∈ names then { i with privateKey := none } else i

/-- The peer without its public key if its name is one of those given. -/
def Peer.hidingKey (names : List String) (p : Peer) : Peer :=
  if p.name ∈ names then { p with publicKey := none } else p

/-- The configuration without the keys of the hosts of the given names. -/
def Config.hidingKeys (names : List String) (c : Config) : Config :=
  { c with interface := c.interface.hidingKey names, peers := c.peers.map (Peer.hidingKey names) }

/-- Hosts are replaced first, and then their keys are hidden. -/
theorem Topology.hidingKeys_withHosts (names : List String) (t : Topology) {hs : List Host}
    (h : hs.length = t.hosts.length) :
    (t.withHosts hs).hidingKeys names = t.withHosts (hs.map (Host.hidingKeys names)) := by
  rw [hidingKeys, hosts_withHosts t hs h, withHosts_withHosts t _ h]

section

variable (names : List String)

@[simp] theorem Host.hostname_hidingKeys (h : Host) :
    (h.hidingKeys names).hostname = h.hostname := by
  rw [hidingKeys]
  split <;> rfl

/-- Of the keys that a host is given, those are hidden that were drawn. -/
theorem Host.hidingKeys_settled (d : Defaults) (draw : Draw) (h : Host)
    (hnames : h.hostname ∉ names → h.rotation? draw = none) :
    (h.settled d draw).hidingKeys names = (h.hidingKeys names).withDefaults d := by
  have hname : (h.settled d draw).hostname = h.hostname := by
    rw [hostname, server_settled, hostname]
  rw [hidingKeys, hname, hidingKeys]
  split
  · obtain ⟨publicKey, privateKey, hkeys⟩ := h.exists_fst_withUsableKeys draw
    rw [settled, hkeys, withDefaults, withDefaults]
    split <;> rfl
  · next hnot =>
    have hkept : h.ignoreDefault = true ∨ h.rekeyReason draw = none := by
      have hnone := hnames hnot
      rw [rotation?] at hnone
      split at hnone
      · next hignore => exact .inl hignore
      · exact .inr (Option.map_eq_none_iff.1 hnone)
    rw [settled, withUsableKeys_of_kept hkept]

/-- Hosts that are settled by two draws are the same where new keys are hidden. -/
theorem map_hidingKeys_settled (d : Defaults) (draws : Draws) (hs : List Host) (hnames : names =
    (rotationsOf draws hs).map Rotation.hostname) :
    (hs.mapIdx fun i h => h.settled d (draws i)).map (Host.hidingKeys names) =
      hs.map fun h => (h.hidingKeys names).withDefaults d := by
  rw [List.map_mapIdx, ← List.mapIdx_eq_map]
  refine List.mapIdx_eq_mapIdx_iff.2 fun i hi => Host.hidingKeys_settled names d (draws i) hs[i] ?_
  intro hnot
  rw [Host.rotation?]
  cases hignore : hs[i].ignoreDefault with
  | true => rfl
  | false =>
    cases hreason : hs[i].rekeyReason (draws i) with
    | none => rfl
    | some reason =>
      refine absurd ?_ hnot
      rw [hnames]
      exact List.mem_map.2 ⟨⟨hs[i].hostname, reason⟩, mem_rotationsOf.2
        ⟨i, hs[i], List.getElem?_eq_getElem hi, hignore, hreason, rfl⟩, rfl⟩

/-! ## Hiding keys in configurations -/

/-- The station without the keys of its host if the host's name is one of those given. -/
def Station.hidingKeys (s : Station) : Station :=
  s.withHost (s.host.hidingKeys names)

namespace Station

variable {names}

/-- A station of one of the names is without its keys. -/
theorem hidingKeys_of_mem {s : Station} (h : s.hostname ∈ names) :
    s.hidingKeys names = s.withHost { s.host with publicKey := none, privateKey := none } :=
  congrArg s.withHost (if_pos h)

theorem hidingKeys_of_not_mem {s : Station} (h : s.hostname ∉ names) : s.hidingKeys names = s :=
  congrArg s.withHost (if_neg h)

variable (names)

/-- Of the keys of all stations, a peer has the one of the station that it stands for. -/
theorem hidingKey_peer (s requester : Station) (keepalive : Option UInt16) :
    ((s.hidingKeys names).peer (requester.hidingKeys names) keepalive).hidingKey names =
      (s.peer requester keepalive).hidingKey names := by
  by_cases hname : s.hostname ∈ names
  · have hpeer : (s.peer requester keepalive).hidingKey names =
        { s.peer requester keepalive with publicKey := none } := if_pos hname
    rw [hpeer, hidingKeys_of_mem hname]
    exact if_pos hname
  · rw [hidingKeys_of_not_mem hname]
    rfl

/-- An interface has the private key of its own station. -/
theorem hidingKey_interface (s : Station) :
    (s.hidingKeys names).interface.hidingKey names = s.interface.hidingKey names := by
  by_cases hname : s.hostname ∈ names
  · have hinterface : s.interface.hidingKey names = { s.interface with privateKey := none } :=
      if_pos hname
    rw [hinterface, hidingKeys_of_mem hname]
    exact if_pos hname
  · rw [hidingKeys_of_not_mem hname]

end Station

end

namespace Mesh

variable {t : Topology} {d : Defaults} {draws draws' : Draws} {m m' : Mesh}

/-- The mesh without the keys of the hosts of the given names. -/
def hidingKeys (names : List String) (m : Mesh) : Mesh :=
  { m with topology := m.topology.hidingKeys names }

/-- The configurations of a mesh, with their names and without the keys of the hosts of the given
names. -/
def configsHidingKeys (names : List String) (m : Mesh) : List (String × Config) :=
  m.configs.map fun (name, c) => (name, Config.hidingKeys names c)

/-- The stations of a mesh without keys are its stations without them. -/
theorem stations_hidingKeys (names : List String) (m : Mesh) :
    (m.hidingKeys names).stations = m.stations.map (Station.hidingKeys names) :=
  m.topology.stations_withHosts_map (Host.hidingKeys names)

/-- Hiding keys before a configuration is made hides no more than hiding them afterwards. -/
theorem config_hidingKeys (names : List String) (m : Mesh) (s : Station) :
    ((m.hidingKeys names).config (s.hidingKeys names)).hidingKeys names =
      (m.config s).hidingKeys names := by
  have hpeers : ((m.hidingKeys names).config (s.hidingKeys names)).peers.map
      (Peer.hidingKey names) = (m.config s).peers.map (Peer.hidingKey names) := by
    rw [peers_config, peers_config, stations_hidingKeys, List.map_map, List.map_map, List.map_map]
    exact List.map_congr_left fun peer _ => peer.hidingKey_peer names s m.persistentKeepalive
  rw [Config.hidingKeys, Config.hidingKeys, hpeers]
  exact congrArg (Config.mk m.topology.name · _) (s.hidingKey_interface names)

/-- The configurations without keys are the same of a mesh that is without them already. -/
theorem configsHidingKeys_hidingKeys (names : List String) (m : Mesh) :
    (m.hidingKeys names).configsHidingKeys names = m.configsHidingKeys names := by
  rw [configsHidingKeys, configsHidingKeys, configs_eq, configs_eq, stations_hidingKeys,
    List.map_map, List.map_map, List.map_map]
  refine List.map_congr_left fun s _ => ?_
  have hname : (s.hidingKeys names).hostname = s.hostname := s.host.hostname_hidingKeys names
  exact Prod.ext hname (m.config_hidingKeys names s)

/-- Two meshes are one but for the keys of the hosts that were given new ones. -/
structure SameButNewKeys (m m' : Mesh) : Prop where
  subnet : m'.subnet = m.subnet
  hostnames : m'.hostnames = m.hostnames
  rotations : m'.rotations = m.rotations
  topology : m'.topology.hidingKeys m.rekeyed = m.topology.hidingKeys m.rekeyed
  configs : m'.configsHidingKeys m.rekeyed = m.configsHidingKeys m.rekeyed

/-- Where the probes of a topology's keys end alike, the same hosts are given new keys. -/
theorem rotationsOf_placedHosts_congr (p : Pool)
    (hprobes : ∀ (i : Nat) (host : Host) (k q : String), t.hosts[i]? = some host →
      host.ignoreDefault = false → host.privateKey = some k → host.publicKey = some q →
        KeyPair.agree (draws i) k q = KeyPair.agree (draws' i) k q) :
    rotationsOf draws (t.placedHosts p) = rotationsOf draws' (t.placedHosts p) := by
  rw [rotationsOf_eq, rotationsOf_eq]
  refine congrArg List.reduceOption (List.mapIdx_eq_mapIdx_iff.2 fun i hi => ?_)
  obtain ⟨before, n, hbefore, hplaced⟩ :=
    Topology.exists_of_getElem?_placedHosts (List.getElem?_eq_getElem hi)
  rw [hplaced, Host.rotation?, Host.rotation?]
  cases hignore : before.ignoreDefault with
  | true => simp [Host.trimmed, hignore]
  | false =>
    have hreason : before.rekeyReason (draws i) = before.rekeyReason (draws' i) :=
      Host.rekeyReason_congr fun k q => hprobes i before k q hbefore hignore
    rw [Host.rekeyReason_withAddressAt, Host.rekeyReason_withAddressAt, Host.rekeyReason_trimmed,
      Host.rekeyReason_trimmed, hreason]

/-- Without the new keys, nothing of what was drawn is left in a compiled topology. -/
theorem topology_hidingKeys_of_compile (h : compile t d draws = .ok m) {p : Pool}
    (hp : (t.withDefaultSubnet d).pool = .ok p) : m.topology.hidingKeys m.rekeyed =
      (t.withDefaultSubnet d).withHosts
        ((t.placedHosts p).map fun host => (host.hidingKeys m.rekeyed).withDefaults d) := by
  obtain ⟨q, hq, -, -, rfl⟩ := compile_eq_ok.1 h
  obtain rfl : q = p := Except.ok.inj (hq.symm.trans hp)
  have hlength : ((t.placedHosts q).mapIdx fun i host => host.settled d (draws i)).length =
      (t.withDefaultSubnet d).hosts.length := by
    rw [List.length_mapIdx, Topology.length_placedHosts, Topology.hosts_withDefaultSubnet]
  rw [Topology.hidingKeys_withHosts _ _ hlength]
  exact congrArg _ (map_hidingKeys_settled _ d draws _ rfl)

/-- Two runs that draw differently fail alike, or make meshes that differ in nothing but new keys,
as long as the probes of the keys that hosts already have end alike. -/
theorem compile_sameButNewKeys
    (hprobes : ∀ (i : Nat) (host : Host) (k p : String), t.hosts[i]? = some host →
      host.ignoreDefault = false → host.privateKey = some k → host.publicKey = some p →
        KeyPair.agree (draws i) k p = KeyPair.agree (draws' i) k p) :
    (∃ e, compile t d draws = .error e ∧ compile t d draws' = .error e) ∨
      ∃ m m', compile t d draws = .ok m ∧ compile t d draws' = .ok m' ∧ m.SameButNewKeys m' := by
  cases h : compile t d draws with
  | error e =>
    refine .inl ⟨e, rfl, ?_⟩
    rw [compile_eq_error, Topology.resolve_eq_error] at h ⊢
    exact h
  | ok m =>
    obtain ⟨p, hp, hfit, hle, hm⟩ := compile_eq_ok.1 h
    obtain ⟨m', h'⟩ : ∃ m', compile t d draws' = .ok m' :=
      exists_compile_eq_ok.2 ⟨p, hp, hfit, hle⟩
    obtain ⟨p', hp', -, -, hm'⟩ := compile_eq_ok.1 h'
    obtain rfl : p = p' := Except.ok.inj (hp.symm.trans hp')
    have hrotations : m'.rotations = m.rotations := by
      rw [hm, hm']
      exact (rotationsOf_placedHosts_congr p hprobes).symm
    have hrekeyed : m'.rekeyed = m.rekeyed := congrArg (List.map Rotation.hostname) hrotations
    have htopology : m'.topology.hidingKeys m.rekeyed = m.topology.hidingKeys m.rekeyed := by
      rw [topology_hidingKeys_of_compile h hp, ← hrekeyed, topology_hidingKeys_of_compile h' hp]
    have hhidden : m'.hidingKeys m.rekeyed = m.hidingKeys m.rekeyed := by
      rw [hidingKeys, hidingKeys, htopology, hrotations, hm, hm']
    refine .inr ⟨m, m', rfl, h', ?_, ?_, hrotations, htopology, ?_⟩
    · rw [hm, hm']
    · rw [hostnames, hostnames, stations, stations, Topology.map_hostname_stations,
        Topology.map_hostname_stations, hostnames_of_compile h, hostnames_of_compile h']
    · rw [← configsHidingKeys_hidingKeys, hhidden, configsHidingKeys_hidingKeys]

/-- A pair of keys passes every probe, so two runs differ in nothing but the keys of the host that
has none. -/
theorem compile_sameButNewKeys_keyedMesh : ∃ m m', compile keyedMesh {} (Draw.expand [0]) = .ok m ∧
    compile keyedMesh {} (Draw.expand [1]) = .ok m' ∧ m.SameButNewKeys m' := by
  have hprobes : ∀ (i : Nat) (host : Host) (k p : String), keyedMesh.hosts[i]? = some host →
      host.ignoreDefault = false → host.privateKey = some k → host.publicKey = some p →
        KeyPair.agree (Draw.expand [0] i) k p = KeyPair.agree (Draw.expand [1] i) k p := by
    intro i host k p hi _ hk hp
    have hpoint := (matches_keyedMesh host (List.mem_of_getElem? hi) k p hk hp).denoteOnePoint
    rw [KeyPair.agree_of_denoteOnePoint hpoint, KeyPair.agree_of_denoteOnePoint hpoint]
  obtain ⟨m, hm⟩ := exists_compile_keyedMesh (Draw.expand [0])
  obtain ⟨e, he, -⟩ | hmeshes := compile_sameButNewKeys (d := {}) hprobes
  · cases hm.symm.trans he
  · exact hmeshes

end Mesh

end TunnelMesh
