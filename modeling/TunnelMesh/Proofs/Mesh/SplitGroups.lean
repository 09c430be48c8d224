import Mathlib
import TunnelMesh.Proofs.Mesh.Stations

/-!
# A group declared in two parts

Groups of one name are one local network, whichever way their hosts are spread over them: a topology
in which one group is declared in two parts is compiled as it was before, or fails as it did, if the
group elects no relay. A relay is elected in every part, though. So if a group that is relayed is
declared in two parts, then the first host of the second part is no longer reached from groups of
its name (`Mesh.compile_splitGroup`); `relayedMesh` is one for which that makes a difference.
-/

namespace TunnelMesh

/-- The peer with no endpoint. -/
def Peer.withoutEndpoint (p : Peer) : Peer :=
  { p with endpoint := none }

/-! ## Stations without places -/

namespace Station

/-- The station without the position of its group. Nothing that a configuration says depends on
it. -/
def unplaced (s : Station) : Station :=
  { s with groupIndex := 0 }

/-- The station as its group's relay, or as an ordinary host. -/
def relaying (relays : Bool) (s : Station) : Station :=
  { s with isRelay := relays }

/-- A host that does not relay is made no relay. -/
theorem relaying_false {s : Station} (h : s.isRelay = false) : s.relaying false = s := by
  rw [relaying, ← h]

theorem relaying_withHost (relays : Bool) (s : Station) (h : Host) :
    (s.relaying relays).withHost h = (s.withHost h).relaying relays := rfl

/-- Behind the first position of a group no host relays. -/
theorem mapIdx_ofHost_succ (g : Group) (k : Nat) (hs : List Host) :
    (hs.mapIdx fun j h => ofHost h 0 g (j + (k + 1))) = hs.map fun h => ofHost h 0 g 1 :=
  List.mapIdx_eq_map (fun h => ofHost h 0 g 1) hs

/-- Hosts are replaced whatever the positions of their groups are. -/
theorem map_unplaced_zipWith_withHost (stations : List Station) (hs : List Host) :
    (List.zipWith withHost stations hs).map unplaced =
      List.zipWith withHost (stations.map unplaced) hs := by
  rw [List.map_zipWith, List.zipWith_map_left]
  rfl

variable (s requester : Station) (keepalive : Option UInt16)

/-- A relay is not reached from groups of its name, and from others as any host. -/
theorem reach_relaying : (s.relaying true).reach requester =
    if s.groupName = requester.groupName then .unknown else s.reach requester := by
  by_cases hgroup : s.groupName = requester.groupName <;> simp [reach, relaying, hgroup]

/-- A host that becomes a relay has no endpoint for groups of its name any more, and is the same
peer for all others. -/
theorem relaying_peer : (s.relaying true).peer requester keepalive =
    if s.groupName = requester.groupName then (s.peer requester keepalive).withoutEndpoint
    else s.peer requester keepalive := by
  have hpeer : (s.relaying true).peer requester keepalive = { s.peer requester keepalive with
      endpoint := (s.relaying true).endpointFor requester } := rfl
  rw [hpeer, endpointFor, addressFor, reach_relaying]
  by_cases hgroup : s.groupName = requester.groupName
  · rw [if_pos hgroup, if_pos hgroup]
    rfl
  · rw [if_neg hgroup, if_neg hgroup]
    rfl

/-- Whether a host that is no relay is reached from the hosts of its group. -/
theorem endpointFor_eq_none {s requester : Station} (hgroup : s.groupName = requester.groupName)
    (hrelay : s.isRelay = false) : s.endpointFor requester = none ↔
      ¬ (Text.nonBlank s.host.server.privateAddress ≠ none ∧ s.host.listenPort ≠ none) := by
  have hreach : s.addressFor requester = Text.nonBlank s.host.server.privateAddress := by
    rw [addressFor, reach, if_neg (not_not.2 hgroup), hrelay, if_neg Bool.false_ne_true]
  rw [endpointFor, hreach]
  cases Text.nonBlank s.host.server.privateAddress <;> cases s.host.listenPort <;> simp

end Station

namespace Topology

/-- The stations of a topology group by group, without the positions of the groups. -/
theorem map_unplaced_stations (t : Topology) : t.stations.map Station.unplaced =
    t.groups.flatMap fun g => g.hosts.mapIdx fun j h => Station.ofHost h 0 g j := by
  have hgroup : ∀ (i : Nat) (g : Group),
      (g.hosts.mapIdx fun j h => Station.ofHost h i g j).map Station.unplaced =
        g.hosts.mapIdx fun j h => Station.ofHost h 0 g j := fun i g => List.map_mapIdx _ _ _
  rw [stations, List.map_flatten, List.map_mapIdx]
  simp only [hgroup]
  rw [List.mapIdx_eq_map, List.flatMap_def]

/-- The topology with one group in two parts. -/
def splitGroup (t : Topology) (before : List Group) (g : Group) (xs ys : List Host)
    (after : List Group) : Topology :=
  { t with groups := before ++ { g with hosts := xs } :: { g with hosts := ys } :: after }

section

variable {t : Topology} {before after : List Group} {g : Group} {xs ys : List Host} {y : Host}

/-- A group that is split has the same hosts in the same order. -/
theorem hosts_splitGroup (ht : t.groups = before ++ { g with hosts := xs ++ ys } :: after) :
    (t.splitGroup before g xs ys after).hosts = t.hosts := by
  simp only [hosts, splitGroup, ht, List.flatMap_append, List.flatMap_cons, List.append_assoc]

/-- A group that is split has the same names, each behind the same name of a group. -/
theorem namesByGroup_splitGroup (ht : t.groups = before ++ { g with hosts := xs ++ ys } :: after) :
    (t.splitGroup before g xs ys after).namesByGroup = t.namesByGroup := by
  simp only [namesByGroup, splitGroup, ht, List.flatMap_append, List.flatMap_cons, List.map_append,
    List.append_assoc]

/-- The subnet does not depend on groups. -/
theorem pool_splitGroup (t : Topology) (d : Defaults) :
    ((t.splitGroup before g xs ys after).withDefaultSubnet d).pool =
      (t.withDefaultSubnet d).pool := rfl

/-- The stations of a topology with one group in two parts are those of the topology, but that the
first host of the second part relays if its group elects relays. -/
theorem map_unplaced_stations_splitGroup
    (ht : t.groups = before ++ { g with hosts := xs ++ y :: ys } :: after) (hxs : xs ≠ []) :
    (t.splitGroup before g xs (y :: ys) after).stations.map Station.unplaced =
      (t.stations.map Station.unplaced).modify (t.hostsBefore before.length xs.length)
        (·.relaying g.visibility.electsRelay) := by
  obtain ⟨k, hk⟩ : ∃ k, xs.length = k + 1 :=
    Nat.exists_eq_succ_of_ne_zero (List.length_pos_of_ne_nil hxs).ne'
  have hposition : t.hostsBefore before.length xs.length =
      (before.flatMap (fun g => g.hosts.mapIdx fun j h => Station.ofHost h 0 g j) ++
        xs.mapIdx fun j h => Station.ofHost h 0 g j).length := by
    simp [hostsBefore, ht, List.length_flatMap]
  -- the hosts behind `y` have other positions in their part, but none is the first
  have hwhole : (xs ++ y :: ys).mapIdx (fun j h => Station.ofHost h 0 g j) =
      xs.mapIdx (fun j h => Station.ofHost h 0 g j) ++ Station.ofHost y 0 g (k + 1) ::
        ys.map fun h => Station.ofHost h 0 g 1 := by
    have hrest := Station.mapIdx_ofHost_succ g (k + 1) ys
    rw [List.mapIdx_append, List.mapIdx_cons, Nat.zero_add, hk, ← hrest]
    simp only [Nat.add_assoc, Nat.add_comm 1]
  have hpart : (y :: ys).mapIdx (fun j h => Station.ofHost h 0 g j) =
      (Station.ofHost y 0 g (k + 1)).relaying g.visibility.electsRelay ::
        ys.map fun h => Station.ofHost h 0 g 1 := by
    rw [List.mapIdx_cons, Station.mapIdx_ofHost_succ g 0 ys]
    rfl
  rw [map_unplaced_stations, map_unplaced_stations, splitGroup, ht, hposition,
    List.flatMap_append, List.flatMap_append, List.flatMap_cons, List.flatMap_cons,
    List.flatMap_cons]
  show _ ++ ((xs.mapIdx fun j h => Station.ofHost h 0 g j) ++
    (((y :: ys).mapIdx fun j h => Station.ofHost h 0 g j) ++ _)) = List.modify (_ ++
      (((xs ++ y :: ys).mapIdx fun j h => Station.ofHost h 0 g j) ++ _)) _ _
  rw [hwhole, hpart, List.append_assoc, List.cons_append, List.cons_append, ← List.append_assoc,
    ← List.append_assoc, List.modify_length_append_cons]

end

end Topology

/-! ## Configurations of stations -/

/-- The configuration with no endpoint for the peer at a position. -/
def Config.withoutEndpoint (c : Config) (i : Nat) : Config :=
  { c with peers := c.peers.modify i Peer.withoutEndpoint }

/-- To leave an endpoint out makes no difference just where there is none. -/
theorem Config.withoutEndpoint_eq_self {c : Config} {i : Nat} {p : Peer}
    (hp : c.peers[i]? = some p) : c.withoutEndpoint i = c ↔ p.endpoint = none := by
  constructor
  · intro h
    have hentry := congrArg (fun c : Config => c.peers[i]?) h
    simp only [withoutEndpoint, List.getElem?_modify_eq, hp, Option.map_eq_map, Option.map_some,
      Option.some.injEq] at hentry
    rw [← hentry, Peer.withoutEndpoint]
  · intro hnone
    have hentry : ∀ p', c.peers[i]? = some p' → p'.withoutEndpoint = p' := by
      intro p' hp'
      obtain rfl : p = p' := Option.some.inj (hp.symm.trans hp')
      rw [Peer.withoutEndpoint, ← hnone]
    rw [withoutEndpoint, List.modify_eq_of_getElem? hentry]

namespace Mesh

/-- The configuration of a station among others. -/
def configAmong (m : Mesh) (stations : List Station) (s : Station) : Config where
  network := m.topology.name
  interface := s.interface
  peers := stations.map fun peer => peer.peer s m.persistentKeepalive

/-- The positions of groups do not matter to configurations. -/
theorem configAmong_unplaced (m : Mesh) (s : Station) :
    m.configAmong (m.stations.map Station.unplaced) s.unplaced = m.config s := by
  rw [config_eq, configAmong, List.map_map]
  rfl

/-- The configurations of a mesh are those among its stations without their places. -/
theorem configs_eq_configAmong (m : Mesh) : m.configs =
    (m.stations.map Station.unplaced).map fun s =>
      (s.hostname, m.configAmong (m.stations.map Station.unplaced) s) := by
  rw [configs_eq, List.map_map]
  simp only [← configAmong_unplaced]
  rfl

variable (m : Mesh) {stations : List Station} {i : Nat} {relay : Station}

/-- Whether a host is a relay does not matter to its own configuration. -/
theorem map_configAmong_relaying (relays : Bool) (others : List Station) :
    (stations.modify i (·.relaying relays)).map (fun s => (s.hostname, m.configAmong others s)) =
      stations.map fun s => (s.hostname, m.configAmong others s) := by
  have hown : ∀ s : Station, ((s.relaying relays).hostname,
      m.configAmong others (s.relaying relays)) = id (s.hostname, m.configAmong others s) :=
    fun _ => rfl
  exact (List.map_modify fun s _ => hown s).trans (List.modify_id ..)

/-- Where a host becomes a relay, the configurations of groups of its name have no endpoint for it,
and all others are as before. -/
theorem configAmong_relaying (hrelay : stations[i]? = some relay) (s : Station) :
    m.configAmong (stations.modify i (·.relaying true)) s =
      if relay.groupName = s.groupName then (m.configAmong stations s).withoutEndpoint i
      else m.configAmong stations s := by
  have hpeer : ∀ p, stations[i]? = some p → (p.relaying true).peer s m.persistentKeepalive =
      if relay.groupName = s.groupName then (p.peer s m.persistentKeepalive).withoutEndpoint
      else p.peer s m.persistentKeepalive := by
    intro p hp
    obtain rfl : relay = p := Option.some.inj (hrelay.symm.trans hp)
    exact relay.relaying_peer s _
  by_cases hgroup : relay.groupName = s.groupName
  · simp only [if_pos hgroup] at hpeer ⊢
    rw [configAmong, List.map_modify hpeer]
    rfl
  · simp only [if_neg hgroup] at hpeer ⊢
    rw [configAmong, (List.map_modify hpeer).trans (List.modify_id ..)]
    rfl

/-- The second mesh has the stations of the first, but that the one at a position, which does not
relay in the first mesh, relays if `relays` says so. -/
structure DiffersInRelay (m m' : Mesh) (i : Nat) (s : Station) (relays : Bool) : Prop where
  name_eq : m'.topology.name = m.topology.name
  keepalive_eq : m'.persistentKeepalive = m.persistentKeepalive
  stations_eq : m'.stations.map Station.unplaced =
    (m.stations.map Station.unplaced).modify i (·.relaying relays)
  station_eq : m.stations[i]? = some s
  isRelay_eq : s.isRelay = false

namespace DiffersInRelay

variable {m} {m' : Mesh} {s : Station} {relays : Bool}

/-- Where the station relays, its endpoint is left out of the configurations of groups of its
name. -/
theorem configs_eq (h : DiffersInRelay m m' i s relays) :
    m'.configs = m.stations.map fun r => (r.hostname,
      if relays = true ∧ r.groupName = s.groupName then (m.config r).withoutEndpoint i
      else m.config r) := by
  have hsame : ∀ others r, m'.configAmong others r = m.configAmong others r := by
    intro others r
    rw [configAmong, h.name_eq, h.keepalive_eq, configAmong]
  have hunplaced : (m.stations.map Station.unplaced)[i]? = some s.unplaced := by
    rw [List.getElem?_map, h.station_eq, Option.map_some]
  rw [configs_eq_configAmong, h.stations_eq]
  simp only [hsame, map_configAmong_relaying]
  rw [List.map_map]
  refine List.map_congr_left fun r _ => congrArg (Prod.mk r.hostname) ?_
  cases relays with
  | false =>
    have hleft : ∀ s', (m.stations.map Station.unplaced)[i]? = some s' →
        s'.relaying false = s' := by
      intro s' hs'
      obtain rfl : s.unplaced = s' := Option.some.inj (hunplaced.symm.trans hs')
      exact Station.relaying_false h.isRelay_eq
    rw [List.modify_eq_of_getElem? hleft, configAmong_unplaced,
      if_neg fun hand => Bool.false_ne_true hand.1]
  | true =>
    rw [configAmong_relaying m hunplaced, configAmong_unplaced]
    exact if_congr ⟨fun heq => ⟨rfl, heq.symm⟩, fun hand => hand.2.symm⟩ rfl rfl

/-- That makes no difference just if the station does not relay or is not reached within its
group. -/
theorem configs_eq_iff (h : DiffersInRelay m m' i s relays) :
    m'.configs = m.configs ↔ ¬ (relays = true ∧
      Text.nonBlank s.host.server.privateAddress ≠ none ∧ s.host.listenPort ≠ none) := by
  have hpeer : ∀ r, (m.config r).peers[i]? = some (s.peer r m.persistentKeepalive) := by
    intro r
    rw [peers_config, List.getElem?_map, h.station_eq, Option.map_some]
  have hentry : ∀ r, r.groupName = s.groupName →
      ((m.config r).withoutEndpoint i = m.config r ↔
        ¬ (Text.nonBlank s.host.server.privateAddress ≠ none ∧ s.host.listenPort ≠ none)) :=
    fun r hgroup => (Config.withoutEndpoint_eq_self (hpeer r)).trans
      (Station.endpointFor_eq_none hgroup.symm h.isRelay_eq)
  rw [h.configs_eq, Mesh.configs_eq, List.map_inj_left]
  constructor
  · rintro hall ⟨hrelays, hreached⟩
    have hown := congrArg Prod.snd (hall s (List.mem_of_getElem? h.station_eq))
    simp only [hrelays, if_pos, true_and] at hown
    exact (hentry s rfl).1 hown hreached
  · intro hnot r _
    by_cases hand : relays = true ∧ r.groupName = s.groupName
    · rw [if_pos hand, (hentry r hand.2).2 fun hreached => hnot ⟨hand.1, hreached⟩]
    · rw [if_neg hand]

end DiffersInRelay

end Mesh

/-! ## The second part of a group -/

namespace Host

/-- The port of a host, or the default's where the host leaves it open. -/
def portWith (d : Defaults) (h : Host) : Option UInt16 :=
  if h.ignoreDefault then h.listenPort else h.listenPort.or d.listenPort

/-- A host that is no relay is reached from the hosts of its group: it has a private address and a
port. -/
def IsReachedWithin (d : Defaults) (h : Host) : Prop :=
  ¬ Text.IsOpen h.server.privateAddress ∧ h.portWith d ≠ none

/-- Of the settled hosts, the ports are those that the hosts or the defaults give. -/
theorem listenPort_settled (d : Defaults) (draw : Draw) (s : Subnet) (free : List Ipv4) (n : Nat)
    (h : Host) : ((h.trimmed.withAddressAt s free n).settled d draw).listenPort = h.portWith d := by
  obtain ⟨address, haddress⟩ := h.trimmed.exists_withAddressAt_eq s free n
  rw [haddress, settled]
  obtain ⟨publicKey, privateKey, hkeys⟩ :=
    { h.trimmed with address := address }.exists_fst_withUsableKeys draw
  rw [hkeys, withDefaults, apply_ite Host.listenPort]
  rfl

end Host

namespace Mesh

variable {t : Topology} {d : Defaults} {draws : Draws} {m : Mesh} {before after : List Group}
  {g : Group} {xs ys : List Host} {y : Host}

/-- The station of a host that stands behind others in its group. -/
theorem exists_station_of_compile (h : compile t d draws = .ok m)
    (ht : t.groups = before ++ { g with hosts := xs ++ y :: ys } :: after) (hxs : xs ≠ []) :
    ∃ s, m.stations[t.hostsBefore before.length xs.length]? = some s ∧ s.groupName = g.name ∧
      s.isRelay = false ∧ s.host.server = y.trimmed.server ∧
        s.host.listenPort = y.portWith d := by
  have hgroup : t.groups[before.length]? = some { g with hosts := xs ++ y :: ys } := by
    rw [ht, List.getElem?_append_right le_rfl, Nat.sub_self, List.getElem?_cons_zero]
  have hhost : (xs ++ y :: ys)[xs.length]? = some y := by
    rw [List.getElem?_append_right le_rfl, Nat.sub_self, List.getElem?_cons_zero]
  have hstation := Topology.getElem?_stations hgroup hhost
  have hbefore : t.hosts[t.hostsBefore before.length xs.length]? = some y := by
    rw [← Topology.map_host_stations, List.getElem?_map, hstation]
    rfl
  obtain ⟨p, -, -, -, hhosts⟩ := hosts_of_compile h
  have hrest : ∃ r, m.topology.hosts[t.hostsBefore before.length xs.length]? = some r ∧
      r.server = y.trimmed.server ∧ r.listenPort = y.portWith d := by
    refine ⟨_, by rw [hhosts, List.getElem?_mapIdx, hbefore, Option.map_some], ?_, ?_⟩
    · rw [Host.server_settled, Host.server_withAddressAt]
    · exact Host.listenPort_settled ..
  obtain ⟨r, hr, hserver, hport⟩ := hrest
  refine ⟨(Station.ofHost y before.length { g with hosts := xs ++ y :: ys } xs.length).withHost r,
    ?_, rfl, ?_, hserver, hport⟩
  · rw [stations_of_compile h, List.getElem?_zipWith, hstation, hr]
  · have hposition : (xs.length == 0) = false :=
      beq_false_of_ne (List.length_pos_of_ne_nil hxs).ne'
    show (xs.length == 0 && g.visibility.electsRelay) = false
    rw [hposition, Bool.false_and]

/-- A mesh with one group in two parts differs in the first host of the second part, which relays if
its group elects relays. -/
theorem compile_splitGroup_eq_ok (h : compile t d draws = .ok m)
    (ht : t.groups = before ++ { g with hosts := xs ++ y :: ys } :: after) (hxs : xs ≠ []) :
    ∃ m' s, compile (t.splitGroup before g xs (y :: ys) after) d draws = .ok m' ∧
      DiffersInRelay m m' (t.hostsBefore before.length xs.length) s g.visibility.electsRelay ∧
      s.groupName = g.name ∧ s.host.server = y.trimmed.server ∧
        s.host.listenPort = y.portWith d := by
  obtain ⟨s, hs, hgroup, hrelay, hhost⟩ := exists_station_of_compile h ht hxs
  have hcompile := compile_eq_ok_congr (t.pool_splitGroup d) (Topology.hosts_splitGroup ht) h
  refine ⟨_, s, hcompile, ⟨?_, rfl, ?_, hs, hrelay⟩, hgroup, hhost⟩
  · rw [topology_eq_of_compile h]
    rfl
  · have hhosts : ((t.splitGroup before g xs (y :: ys) after).withDefaultSubnet d).hosts =
        t.hosts := Topology.hosts_splitGroup ht
    rw [stations_of_compile hcompile, stations_of_compile h, Station.map_unplaced_zipWith_withHost,
      Station.map_unplaced_zipWith_withHost, Topology.map_unplaced_stations_splitGroup ht hxs,
      Topology.hosts_withHosts _ _ (by rw [hhosts, length_hosts_of_compile h])]
    exact List.zipWith_modify (Station.relaying_withHost _) _ _ _

/-- A topology is compiled as the same with one group in two parts, or fails as it does, but that
the first host of the second part has no endpoint in the configurations of groups of its name, if
its group is relayed. So the configurations are the same just if the group is not relayed or that
host was not reached within it before. -/
theorem compile_splitGroup
    (ht : t.groups = before ++ { g with hosts := xs ++ y :: ys } :: after) (hxs : xs ≠ []) :
    (∀ e, compile (t.splitGroup before g xs (y :: ys) after) d draws = .error e ↔
      compile t d draws = .error e) ∧
    ∀ m, compile t d draws = .ok m →
      ∃ m', compile (t.splitGroup before g xs (y :: ys) after) d draws = .ok m' ∧
        m'.configs = m.stations.map (fun s => (s.hostname,
          if g.visibility = .relayed ∧ s.groupName = g.name then
            (m.config s).withoutEndpoint (t.hostsBefore before.length xs.length)
          else m.config s)) ∧
        (m'.configs = m.configs ↔ ¬ (g.visibility = .relayed ∧ y.IsReachedWithin d)) := by
  refine ⟨fun e => compile_eq_error_congr (t.pool_splitGroup d) (Topology.hosts_splitGroup ht)
    (Topology.namesByGroup_splitGroup ht), fun m h => ?_⟩
  obtain ⟨m', s, hm', hdiffers, hgroup, hserver, hport⟩ := compile_splitGroup_eq_ok h ht hxs
  have helects : g.visibility.electsRelay = true ↔ g.visibility = .relayed := by
    cases g.visibility <;> decide
  refine ⟨m', hm', ?_, ?_⟩
  · simp only [hdiffers.configs_eq, helects, hgroup]
  · rw [hdiffers.configs_eq_iff, helects, hserver, hport, Host.trimmed, Text.nonBlank_map_trim,
      Host.IsReachedWithin, Text.isOpen_iff]

/-- The relayed group of the mesh of four in two parts. Its second host has no private address, so
that nothing changes. -/
theorem compile_splitGroup_mixedMesh : ∃ m m', compile mixedMesh {} (Draw.expand []) = .ok m ∧
    compile (mixedMesh.splitGroup [] { name := "a", visibility := .relayed }
      [{ server := { hostname := "a1" } }]
      [{ server := { hostname := "a2" }, address := some " 10.0.0.2/24 " }]
      (mixedMesh.groups.drop 1)) {} (Draw.expand []) = .ok m' ∧ m'.configs = m.configs := by
  obtain ⟨m, hm⟩ := exists_compile_mixedMesh none (Draw.expand [])
  have ht : mixedMesh.groups = [] ++ { name := "a", visibility := .relayed, hosts :=
      [{ server := { hostname := "a1" } }] ++
        { server := { hostname := "a2" }, address := some " 10.0.0.2/24 " } :: [] } ::
          mixedMesh.groups.drop 1 := rfl
  obtain ⟨m', hm', -, hsame⟩ := (compile_splitGroup (g := { name := "a", visibility := .relayed })
    ht (List.cons_ne_nil _ _)).2 m hm
  exact ⟨m, m', hm, hm', hsame.2 fun hand => hand.2.1 rfl⟩

/-- A host with a private address and a port. -/
def privateHost : Host where
  server := { hostname := "b", privateAddress := some "192.168.0.2" }
  listenPort := some 51820
  ignoreDefault := true

/-- A mesh of two hosts in one group, the second of which is reached on its private address. -/
def relayedMesh : Topology where
  name := "relayed"
  address := some "10.0.0.0/24"
  groups := [
    { name := "lan", visibility := .relayed, hosts := [
      { server := { hostname := "a" }, ignoreDefault := true }, privateHost] }]

/-- In two parts the group has two relays, so that the second host is no longer reached. -/
theorem splitGroup_unreached_relayedMesh : ∃ m m',
    compile relayedMesh {} (Draw.expand []) = .ok m ∧
      compile (relayedMesh.splitGroup [] { name := "lan", visibility := .relayed }
        [{ server := { hostname := "a" }, ignoreDefault := true }] [privateHost] [])
        {} (Draw.expand []) = .ok m' ∧ m'.configs ≠ m.configs := by
  have hpool : (relayedMesh.withDefaultSubnet {}).pool =
      .ok (Pool.ofSubnet ⟨Ipv4.ofOctets 10 0 0 0, 24, by decide⟩) := by decide
  have hsome : ∃ m, compile relayedMesh {} (Draw.expand []) = .ok m :=
    exists_compile_eq_ok.2 ⟨_, hpool, by decide, by decide +kernel⟩
  have ht : relayedMesh.groups = [] ++ { name := "lan", visibility := .relayed, hosts :=
      [{ server := { hostname := "a" }, ignoreDefault := true }] ++ privateHost :: [] } :: [] := rfl
  have hxs : [({ server := { hostname := "a" }, ignoreDefault := true } : Host)] ≠ [] :=
    List.cons_ne_nil _ _
  obtain ⟨m, hm⟩ := hsome
  obtain ⟨m', s, hm', hdiffers, -, hserver, hport⟩ :=
    compile_splitGroup_eq_ok (g := { name := "lan", visibility := .relayed }) hm ht hxs
  refine ⟨m, m', hm, hm', fun hsame => hdiffers.configs_eq_iff.1 hsame ⟨rfl, ?_, ?_⟩⟩
  · rw [hserver]
    decide
  · rw [hport]
    exact Option.some_ne_none _

end Mesh

end TunnelMesh
