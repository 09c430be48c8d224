import Mathlib
import TunnelMesh.Proofs.Key
import TunnelMesh.Proofs.Mesh.Resolution

/-!
# Stations of a compiled mesh

The stations of a topology are its hosts in order (`Topology.map_host_stations`), each with its
group and its place in it (`Topology.getElem?_stations`), and replaced hosts stand at the places of
those before (`Topology.stations_withHosts`). In a compiled mesh the names differ, so every station
is found by its name and its configuration is the one of that name (`Mesh.configFor_hostname`);
where names were equal, the index would find the last host of the name (`Mesh.station?_eq_find?`). A
station announces the public key of its own private key (`Host.Announces`), and at which address it
is reached depends on the names of two groups and on who relays (`Station.reachedAt`).
-/

namespace TunnelMesh

/-! ## What stations announce -/

/-- A public key's text belongs to the private key of a host. -/
def Host.Announces (h : Host) (key : String) : Prop :=
  ∃ text q, h.privateKey = some text ∧ PrivateKey.parse text = .ok q ∧ q.publicKey.text = key

namespace Station

variable {s requester : Station}

/-- The key that is announced is the one of the private key. -/
theorem announcedKey_eq_some {key : String} :
    s.announcedKey = some key ↔ s.host.Announces key := by
  have hread : ∀ text, (publicTextFor text).toOption = some key ↔
      ∃ q, PrivateKey.parse text = .ok q ∧ q.publicKey.text = key := fun text => by
    rw [← publicTextFor_eq_ok]
    cases publicTextFor text <;> simp [Except.toOption]
  rw [announcedKey, Option.bind_eq_some_iff]
  simp only [hread, Host.Announces]
  constructor
  · rintro ⟨shown, hshown, q, hq, hkey⟩
    obtain ⟨text, htext, -, rfl⟩ := Text.nonBlank_eq_some.1 hshown
    exact ⟨text, q, htext, PrivateKey.parse_trim text ▸ hq, hkey⟩
  · rintro ⟨text, q, htext, hq, hkey⟩
    have hblank := Key.not_isBlankText_of_decode (PrivateKey.parse_eq_ok.1 hq)
    exact ⟨Text.trim text, Text.nonBlank_eq_some.2 ⟨text, htext, hblank, rfl⟩, q,
      (PrivateKey.parse_trim text).symm ▸ hq, hkey⟩

/-- A key is announced just when the private key can be read. -/
theorem announcedKey_isSome : s.announcedKey.isSome = true ↔
    ∃ text q, s.host.privateKey = some text ∧ PrivateKey.parse text = .ok q := by
  rw [Option.isSome_iff_exists]
  simp only [announcedKey_eq_some, Host.Announces]
  constructor
  · rintro ⟨key, text, q, htext, hq, -⟩
    exact ⟨text, q, htext, hq⟩
  · rintro ⟨text, q, htext, hq⟩
    exact ⟨_, text, q, htext, hq, rfl⟩

/-- Announced keys are texts of 32 bytes. -/
theorem exists_eq_encode_of_announcedKey {key : String} (h : s.announcedKey = some key) :
    ∃ bytes : Octets 32, key = Base64.encode bytes.val := by
  obtain ⟨text, q, -, -, rfl⟩ := announcedKey_eq_some.1 h
  exact ⟨_, rfl⟩

/-! ## How stations are reached -/

/-- The address at which another station reaches this one: the public one from groups of other
names, and the private one from groups of the same name, but none for the relay. -/
def reachedAt (s requester : Station) : Option String :=
  if s.groupName ≠ requester.groupName then Text.shown s.host.server.publicAddress
  else if s.isRelay = true then none
  else Text.shown s.host.server.privateAddress

/-- The address that a station is given is the one at which it is reached. -/
theorem addressFor_eq_reachedAt (s requester : Station) :
    s.addressFor requester = s.reachedAt requester := by
  rw [addressFor, reach, reachedAt]
  split_ifs <;> simp only [Text.nonBlank_eq_shown]

/-- Where packets for a station are sent, if both an address and a port are set. -/
theorem endpointFor_eq_some {e : Endpoint} : s.endpointFor requester = some e ↔
    s.reachedAt requester = some e.host ∧ s.host.listenPort = some e.port := by
  obtain ⟨host, port⟩ := e
  rw [endpointFor, addressFor_eq_reachedAt]
  cases s.reachedAt requester <;> cases s.host.listenPort <;> simp

/-- The first host of a group that is relayed is its relay. -/
theorem isRelay_ofHost (h : Host) (group : Nat) (g : Group) (position : Nat) :
    (ofHost h group g position).isRelay = true ↔ position = 0 ∧ g.visibility = .relayed := by
  cases hv : g.visibility <;> simp [ofHost, Visibility.electsRelay, hv]

end Station

/-! ## Stations in order -/

/-- The station with another host at its place. -/
def Station.withHost (s : Station) (h : Host) : Station :=
  { s with host := h }

namespace Topology

/-- How many hosts stand before a host of the group at a position. -/
def hostsBefore (t : Topology) (group position : Nat) : Nat :=
  ((t.groups.take group).flatMap (·.hosts)).length + position

/-- The stations of a topology are its hosts, in order. -/
@[simp] theorem map_host_stations (t : Topology) : t.stations.map Station.host = t.hosts := by
  have hgroup : ∀ (i : Nat) (g : Group),
      (g.hosts.mapIdx fun j h => Station.ofHost h i g j).map Station.host = g.hosts := by
    intro i g
    rw [List.map_mapIdx]
    exact (List.mapIdx_eq_map id g.hosts).trans (List.map_id _)
  rw [stations, List.map_flatten, List.map_mapIdx]
  simp only [hgroup]
  rw [List.mapIdx_eq_map, hosts, List.flatMap_def]

@[simp] theorem length_stations (t : Topology) : t.stations.length = t.hosts.length := by
  rw [← t.map_host_stations, List.length_map]

/-- The stations have the names of the hosts in order. -/
theorem map_hostname_stations (t : Topology) :
    t.stations.map Station.hostname = t.hosts.map Host.hostname := by
  rw [← t.map_host_stations, List.map_map]
  rfl

/-- The station of a host, by the position of its group and its position in the group. -/
theorem getElem?_stations {t : Topology} {group position : Nat} {g : Group} {h : Host}
    (hg : t.groups[group]? = some g) (hh : g.hosts[position]? = some h) :
    t.stations[t.hostsBefore group position]? = some (Station.ofHost h group g position) := by
  have hlengths : ((t.groups.mapIdx fun i g =>
      g.hosts.mapIdx fun j h => Station.ofHost h i g j).take group).map List.length =
        ((t.groups.take group).map (·.hosts)).map List.length := by
    rw [List.map_take, List.map_take, List.map_take, List.map_mapIdx, List.map_map]
    simp only [List.length_mapIdx]
    rw [List.mapIdx_eq_map]
    rfl
  rw [hostsBefore, List.flatMap_def, List.length_flatten, ← hlengths]
  refine List.getElem?_flatten_of ?_ (l := g.hosts.mapIdx fun j h => Station.ofHost h group g j) ?_
  · rw [List.getElem?_mapIdx, hg, Option.map_some]
  · rw [List.getElem?_mapIdx, hh, Option.map_some]

/-- Replaced hosts stand at the places of those before, wherever the first group stands. -/
theorem flatten_mapIdx_refill (gs : List Group) (hs : List Host) (n : Nat)
    (h : hs.length = (gs.flatMap (·.hosts)).length) :
    ((refill gs hs).mapIdx fun i g =>
        g.hosts.mapIdx fun j h => Station.ofHost h (i + n) g j).flatten =
      List.zipWith Station.withHost
        (gs.mapIdx fun i g => g.hosts.mapIdx fun j h => Station.ofHost h (i + n) g j).flatten
        hs := by
  induction gs generalizing hs n with
  | nil =>
    rw [List.eq_nil_of_length_eq_zero h]
    rfl
  | cons g gs ih =>
    rw [List.flatMap_cons, List.length_append] at h
    have hdrop : (hs.drop g.hosts.length).length = (gs.flatMap (·.hosts)).length := by
      rw [List.length_drop]; omega
    have htake : (hs.take g.hosts.length).length = g.hosts.length := by
      rw [List.length_take]; omega
    have hshift : ∀ i, i + 1 + n = i + (n + 1) := fun i => by omega
    have hfirst : (hs.take g.hosts.length).mapIdx (fun j h =>
        Station.ofHost h (0 + n) { g with hosts := hs.take g.hosts.length } j) =
          List.zipWith Station.withHost
            (g.hosts.mapIdx fun j h => Station.ofHost h (0 + n) g j)
            (hs.take g.hosts.length) := by
      refine List.ext_getElem (by simp [htake]) fun j hj hj' => ?_
      rw [List.getElem_mapIdx, List.getElem_zipWith, List.getElem_mapIdx]
      rfl
    rw [refill, List.mapIdx_cons, List.mapIdx_cons, List.flatten_cons, List.flatten_cons]
    simp only [hshift, ih _ (n + 1) hdrop, hfirst]
    rw [← List.zipWith_append (by simp [htake]), List.take_append_drop]

/-- Replaced hosts stand at the places of those before. -/
theorem stations_withHosts (t : Topology) {hs : List Host} (h : hs.length = t.hosts.length) :
    (t.withHosts hs).stations = List.zipWith Station.withHost t.stations hs :=
  flatten_mapIdx_refill t.groups hs 0 h

/-- Where all hosts are changed alike, so are the stations. -/
theorem stations_withHosts_map (t : Topology) (f : Host → Host) :
    (t.withHosts (t.hosts.map f)).stations = t.stations.map fun s => s.withHost (f s.host) := by
  rw [stations_withHosts t (List.length_map f), ← t.map_host_stations, List.map_map,
    List.zipWith_map_right, List.zipWith_self]
  rfl

end Topology

/-! ## The index of names -/

namespace Mesh

/-- Under the name of the pair that is inserted stands that pair, and under all other names what
stood there before. -/
theorem lookup_insertByName {α : Type} (name : String) (a : α) (pairs : List (String × α))
    (n : String) : (insertByName name a pairs).lookup n = ((name, a) :: pairs).lookup n := by
  induction pairs with
  | nil => rfl
  | cons p pairs ih =>
    rw [insertByName]
    split_ifs with hlt heq
    · rfl
    · -- the pair that is replaced is not reached
      subst heq
      simp only [List.lookup_cons_eq_ite]
      split_ifs <;> rfl
    · rw [List.lookup_cons_eq_ite, ih]
      simp only [List.lookup_cons_eq_ite]
      split_ifs with hp hname
      · exact absurd (hname.symm.trans hp) heq
      all_goals rfl

/-- Of pairs of one name, the last one counts. -/
theorem lookup_byName {α : Type} (pairs : List (String × α)) (n : String) :
    (byName pairs).lookup n = pairs.reverse.lookup n := by
  suffices h : ∀ acc : List (String × α),
      (pairs.foldl (fun acc p => insertByName p.1 p.2 acc) acc).lookup n =
        (pairs.reverse ++ acc).lookup n from (h []).trans (by rw [List.append_nil])
  induction pairs with
  | nil => exact fun _ => rfl
  | cons p pairs ih =>
    intro acc
    rw [List.foldl_cons, ih, List.reverse_cons, List.append_assoc, List.singleton_append,
      List.lookup_append, List.lookup_append, lookup_insertByName]

/-- Stations that are looked up by their positions are found as the last ones of their names. -/
theorem bind_lookup_positions (ss rest : List Station) (name : String) :
    ((ss.mapIdx fun i s => (s.hostname, i)).reverse.lookup name).bind
        (fun i => (ss ++ rest)[i]?) = ss.reverse.find? (·.hostname == name) := by
  induction ss using List.reverseRecOn generalizing rest with
  | nil => rfl
  | append_singleton ss s ih =>
    rw [List.mapIdx_concat, List.reverse_concat, List.reverse_concat, List.append_assoc,
      List.singleton_append, List.lookup_cons_eq_ite, List.find?_cons]
    by_cases hname : name = s.hostname
    · simp [hname]
    · simp [hname, beq_false_of_ne (Ne.symm hname), ih]

/-- The host of a name is the last one of that name. -/
theorem station?_eq_find? (m : Mesh) (name : String) :
    m.station? name = m.stations.reverse.find? (·.hostname == name) := by
  have hpositions := bind_lookup_positions m.stations [] name
  rwa [List.append_nil, ← lookup_byName] at hpositions

/-! ## Stations by name -/

variable {t : Topology} {d : Defaults} {draws : Draws} {m : Mesh}

/-- A compiled mesh has as many hosts as the topology. -/
theorem length_hosts_of_compile (h : compile t d draws = .ok m) :
    m.topology.hosts.length = t.hosts.length := by
  obtain ⟨p, -, -, -, hhosts⟩ := hosts_of_compile h
  rw [hhosts, List.length_mapIdx]

/-- The stations of a compiled mesh are those of the topology with other hosts. -/
theorem stations_of_compile (h : compile t d draws = .ok m) :
    m.stations = List.zipWith Station.withHost t.stations m.topology.hosts := by
  nth_rewrite 1 [stations, topology_eq_of_compile h]
  have hlength := length_hosts_of_compile h
  exact Topology.stations_withHosts (t.withDefaultSubnet d) hlength

/-- The names of a compiled mesh are not empty and differ. -/
theorem namesFit_of_compile (h : compile t d draws = .ok m) :
    NamesFit [] (m.topology.hosts.map Host.hostname) := by
  obtain ⟨-, -, hfit, -⟩ := compile_eq_ok.1 h
  rwa [hostnames_of_compile h]

/-- Stations are told apart by their names. -/
theorem station_eq_of_hostname_eq (h : compile t d draws = .ok m) {s s' : Station}
    (hs : s ∈ m.stations) (hs' : s' ∈ m.stations) (hname : s.hostname = s'.hostname) : s = s' := by
  refine List.inj_on_of_nodup_map ?_ hs hs' hname
  rw [stations, Topology.map_hostname_stations]
  exact (namesFit_of_compile h).2.1

/-- A station is found by its name. -/
theorem station?_hostname (h : compile t d draws = .ok m) {s : Station} (hs : s ∈ m.stations) :
    m.station? s.hostname = some s := by
  rw [station?_eq_find?]
  cases hfind : m.stations.reverse.find? (·.hostname == s.hostname) with
  | none =>
    have hnot := List.find?_eq_none.1 hfind s (List.mem_reverse.2 hs)
    simp at hnot
  | some s' =>
    have hname := List.find?_some hfind
    have hs' := List.mem_reverse.1 (List.mem_of_find?_eq_some hfind)
    rw [beq_iff_eq] at hname
    rw [station_eq_of_hostname_eq h hs' hs hname]

/-- The configuration of a station's name is the station's. -/
theorem configFor_hostname (h : compile t d draws = .ok m) {s : Station} (hs : s ∈ m.stations) :
    m.configFor s.hostname = some (m.config s) := by
  rw [configFor, station?_hostname h hs, Option.map_some]

/-- The peers of a configuration are all stations, in order. -/
theorem peers_config (m : Mesh) (s : Station) :
    (m.config s).peers = m.stations.map fun peer => peer.peer s m.persistentKeepalive := by
  rw [config, configWith, announced, List.map_map]
  rfl

/-- The parts of a configuration. -/
theorem config_eq (m : Mesh) (s : Station) : m.config s = {
    network := m.topology.name
    interface := s.interface
    peers := m.stations.map fun peer => peer.peer s m.persistentKeepalive } := by
  rw [← peers_config]
  rfl

/-- Every station has its configuration under its name. -/
theorem configs_eq (m : Mesh) : m.configs = m.stations.map fun s => (s.hostname, m.config s) :=
  rfl

/-- The configurations stand under the trimmed names of the topology. -/
theorem map_fst_configs (h : compile t d draws = .ok m) :
    m.configs.map Prod.fst = t.hosts.map (·.trimmedName) := by
  rw [← hostnames_of_compile h, ← Topology.map_hostname_stations, configs_eq, List.map_map]
  rfl

end Mesh

end TunnelMesh
