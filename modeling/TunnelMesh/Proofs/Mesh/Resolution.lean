import Mathlib
import TunnelMesh.Mesh.Compile
import TunnelMesh.Proofs.List
import TunnelMesh.Proofs.Mesh.Names
import TunnelMesh.Proofs.Mesh.Placement

/-!
# What resolving a topology does

A topology is compiled just when its subnet can be read, its names fit and the free addresses
reach, and then each host is the one that the steps for a single host make of it
(`Mesh.compile_eq_ok`): trimmed, placed (`Topology.placedHosts`) and settled with keys and defaults
(`Host.settled`).
-/

namespace TunnelMesh

/-! ## Replacing all hosts -/

namespace Topology

/-- Of two fillings of the groups the last one counts. -/
theorem refill_refill (gs : List Group) (hs hs' : List Host)
    (h : hs.length = (gs.flatMap (·.hosts)).length) :
    refill (refill gs hs) hs' = refill gs hs' := by
  induction gs generalizing hs hs' with
  | nil => rfl
  | cons g gs ih =>
    rw [List.flatMap_cons, List.length_append] at h
    have htake : (hs.take g.hosts.length).length = g.hosts.length := by
      rw [List.length_take]; omega
    have hdrop : (hs.drop g.hosts.length).length = (gs.flatMap (·.hosts)).length := by
      rw [List.length_drop]; omega
    rw [refill, refill, refill, htake, ih _ _ hdrop]

/-- Groups that are filled with their own hosts are left as they are. -/
theorem refill_self (gs : List Group) : refill gs (gs.flatMap (·.hosts)) = gs := by
  induction gs with
  | nil => rfl
  | cons g gs ih => rw [List.flatMap_cons, refill, List.take_left, List.drop_left, ih]

/-- Where all hosts are changed alike, they are changed group by group. -/
theorem refill_map (f : Host → Host) (gs : List Group) :
    refill gs ((gs.flatMap (·.hosts)).map f) =
      gs.map fun g => { g with hosts := g.hosts.map f } := by
  induction gs with
  | nil => rfl
  | cons g gs ih =>
    have hlength : (g.hosts.map f).length = g.hosts.length := List.length_map f
    rw [List.flatMap_cons, List.map_append, refill, List.map_cons, List.take_left' hlength,
      List.drop_left' hlength, ih]

/-- What a group is apart from who its hosts are. -/
def shape (g : Group) : String × Visibility × Nat :=
  (g.name, g.visibility, g.hosts.length)

/-- Filling groups leaves all but who their hosts are. -/
theorem map_shape_refill (gs : List Group) (hs : List Host)
    (h : hs.length = (gs.flatMap (·.hosts)).length) : (refill gs hs).map shape = gs.map shape := by
  induction gs generalizing hs with
  | nil => rfl
  | cons g gs ih =>
    rw [List.flatMap_cons, List.length_append] at h
    have htake : (hs.take g.hosts.length).length = g.hosts.length := by
      rw [List.length_take]; omega
    rw [refill, List.map_cons, List.map_cons, ih _ (by rw [List.length_drop]; omega), shape, htake,
      shape]

/-- Of two replacements the last one counts. -/
theorem withHosts_withHosts (t : Topology) {hs : List Host} (hs' : List Host)
    (h : hs.length = t.hosts.length) : (t.withHosts hs).withHosts hs' = t.withHosts hs' := by
  rw [withHosts, withHosts, refill_refill t.groups hs hs' h, withHosts]

theorem withHosts_hosts (t : Topology) : t.withHosts t.hosts = t := by
  rw [withHosts, hosts, refill_self]

@[simp] theorem hosts_withDefaultSubnet (t : Topology) (d : Defaults) :
    (t.withDefaultSubnet d).hosts = t.hosts := rfl

/-- A new pool has nothing claimed. -/
theorem claimed_pool {t : Topology} {p : Pool} (h : t.pool = .ok p) : p.claimed = [] := by
  rw [pool] at h
  split at h
  · cases h
  · split at h
    · rw [Pool.ofCidr] at h
      split at h <;> cases h
      rfl
    · split at h
      · cases h
      · rw [Pool.ofAddressAndNetmask] at h
        repeat' split at h
        all_goals cases h
        rfl

end Topology

/-! ## Steps for one host -/

/-- The names of the hosts that are given new keys, with the reasons. -/
def rotationsOf (draws : Draws) (hs : List Host) : List Rotation :=
  (hs.mapIdx fun i h => h.withUsableKeys (draws i)).filterMap
    fun (h, reason) => reason.map (⟨h.hostname, ·⟩)

/-- A placed host with its keys and the settings of the defaults. -/
def Host.settled (d : Defaults) (draw : Draw) (h : Host) : Host :=
  (h.withUsableKeys draw).1.withDefaults d

namespace Host

variable (d : Defaults) (draw : Draw) (h : Host)

/-- Whatever becomes of the keys of a host, all else is left as it is. -/
theorem exists_fst_withUsableKeys : ∃ publicKey privateKey,
    (h.withUsableKeys draw).1 = { h with publicKey := publicKey, privateKey := privateKey } := by
  rw [withUsableKeys]
  split
  · exact ⟨_, _, rfl⟩
  · split
    · exact ⟨_, _, rfl⟩
    · exact ⟨_, _, rfl⟩

/-- Keys and defaults are filled in beside what a host is and where it is reached. -/
theorem settled_eq : h.settled d draw = { h.settled d draw with
    server := h.server, address := h.address, ignoreDefault := h.ignoreDefault } := by
  obtain ⟨publicKey, privateKey, hkeys⟩ := h.exists_fst_withUsableKeys draw
  rw [settled, hkeys, withDefaults]
  split <;> rfl

@[simp] theorem server_settled : (h.settled d draw).server = h.server := by rw [settled_eq]

@[simp] theorem address_settled : (h.settled d draw).address = h.address := by rw [settled_eq]

@[simp] theorem ignoreDefault_settled : (h.settled d draw).ignoreDefault = h.ignoreDefault := by
  rw [settled_eq]

end Host

/-- The addresses of a pool that no host of a topology declares, lowest first. -/
def Topology.freeAddresses (t : Topology) (p : Pool) : List Ipv4 :=
  (p.claimDeclared t.hosts).free

/-- The hosts of a topology, trimmed and placed. -/
def Topology.placedHosts (t : Topology) (p : Pool) : List Host :=
  fillAddresses p.subnet (t.freeAddresses p) (t.hosts.map Host.trimmed)

@[simp] theorem length_fillAddresses (s : Subnet) (free : List Ipv4) (hs : List Host) :
    (fillAddresses s free hs).length = hs.length :=
  List.length_mapIdx

/-- No host is lost where all are placed. -/
@[simp] theorem Topology.length_placedHosts (t : Topology) (p : Pool) :
    (t.placedHosts p).length = t.hosts.length := by
  rw [placedHosts, length_fillAddresses, List.length_map]

/-- A placed host is the one at its position, trimmed and perhaps with another address. -/
theorem Topology.exists_of_getElem?_placedHosts {t : Topology} {p : Pool} {i : Nat} {r : Host}
    (h : (t.placedHosts p)[i]? = some r) : ∃ host n, t.hosts[i]? = some host ∧
      r = host.trimmed.withAddressAt p.subnet (t.freeAddresses p) n := by
  rw [placedHosts, fillAddresses, List.getElem?_mapIdx, Option.map_eq_some_iff] at h
  obtain ⟨_, htrimmed, rfl⟩ := h
  rw [List.getElem?_map, Option.map_eq_some_iff] at htrimmed
  obtain ⟨host, hhost, rfl⟩ := htrimmed
  exact ⟨host, _, hhost, rfl⟩

/-- Placing hosts leaves their names as they are. -/
theorem Topology.map_hostname_placedHosts (t : Topology) (p : Pool) :
    (t.placedHosts p).map Host.hostname = t.hosts.map (·.trimmedName) := by
  rw [placedHosts, fillAddresses, List.map_mapIdx, List.mapIdx_map]
  simp only [Host.hostname, Host.server_withAddressAt]
  exact List.mapIdx_eq_map _ _

/-- Trimmed hosts declare the same addresses. -/
theorem claimDeclared_map_trimmed (p : Pool) (hs : List Host) :
    p.claimDeclared (hs.map Host.trimmed) = p.claimDeclared hs := by
  rw [Pool.claimDeclared, Pool.claimDeclared, List.filterMap_map]
  exact congrArg p.claimAll (List.filterMap_congr fun h _ => h.declared?_trimmed)

@[simp] theorem subnet_claimDeclared (p : Pool) (hs : List Host) :
    (p.claimDeclared hs).subnet = p.subnet :=
  p.subnet_claimAll _

/-- The free addresses of a new pool are the usable ones that no host declares. -/
theorem Topology.mem_freeAddresses {t : Topology} {p : Pool} (hp : p.claimed = []) {a : Ipv4} :
    a ∈ t.freeAddresses p ↔
      p.subnet.isUsable a = true ∧ ∀ h ∈ t.hosts, ¬ h.DeclaresAddress a := by
  rw [freeAddresses, Pool.claimDeclared, Pool.mem_free_claimAll, Pool.mem_free, Pool.isClaimed, hp,
    List.mem_filterMap]
  simp [Host.declared?_eq_some]

/-! ## All steps -/

namespace Topology

/-- The topology with the subnet of the defaults and all hosts trimmed. -/
def normalized (t : Topology) (d : Defaults) : Topology :=
  (t.withDefaultSubnet d).withHosts (t.hosts.map Host.trimmed)

/-- The hosts of a normalized topology are the trimmed ones. -/
@[simp] theorem hosts_normalized (t : Topology) (d : Defaults) :
    (t.normalized d).hosts = t.hosts.map Host.trimmed :=
  hosts_withHosts _ _ (by rw [List.length_map, hosts_withDefaultSubnet])

/-- Trimming leaves no trace where all hosts are replaced. -/
theorem withHosts_normalized (t : Topology) (d : Defaults) (hs : List Host) :
    (t.normalized d).withHosts hs = (t.withDefaultSubnet d).withHosts hs :=
  withHosts_withHosts _ _ (by rw [List.length_map, hosts_withDefaultSubnet])

/-- The check of all names is passed just when the trimmed names fit, and then has seen all of them.
-/
theorem checkAllNames_normalized {t : Topology} {d : Defaults} {seen : List String} :
    checkAllNames [] (t.normalized d).groups = .ok seen ↔
      NamesFit [] (t.hosts.map (·.trimmedName)) ∧
        seen = (t.hosts.map (·.trimmedName)).reverse := by
  have hhosts : (t.normalized d).groups.flatMap (·.hosts) = t.hosts.map Host.trimmed :=
    t.hosts_normalized d
  have hnames : (t.hosts.map Host.trimmed).map Host.hostname =
      t.hosts.map (·.trimmedName) := List.map_map
  rw [checkAllNames_eq_ok, hhosts, hnames, List.append_nil]

/-- The trimmed names of the hosts in order, each behind the name of its group. -/
def namesByGroup (t : Topology) : List (String × String) :=
  t.groups.flatMap fun g => g.hosts.map fun h => (g.name, Text.trim h.server.hostname)

/-- The names by group are the trimmed names of all hosts. -/
theorem map_snd_namesByGroup (t : Topology) :
    t.namesByGroup.map Prod.snd = t.hosts.map (·.trimmedName) := by
  simp only [namesByGroup, hosts, List.map_flatMap, List.map_map]
  rfl

/-- The check of all names stops at the first trimmed name at fault. -/
theorem checkAllNames_normalized_eq_error {t : Topology} {d : Defaults} {e : MeshError} :
    checkAllNames [] (t.normalized d).groups = .error e ↔
      ∃ group name, FirstMisnamed [] t.namesByGroup group name ∧ e = misnamedError group name := by
  have hgroups : (t.normalized d).groups =
      t.groups.map fun g => { g with hosts := g.hosts.map Host.trimmed } := refill_map _ _
  have hnames : ((t.normalized d).groups.flatMap fun g =>
      g.hosts.map fun h => (g.name, h.hostname)) = t.namesByGroup := by
    simp only [hgroups, List.flatMap_map, List.map_map, namesByGroup]
    rfl
  rw [checkAllNames_eq_error, hnames]

/-- Trimming does not change what is declared, so the placed hosts can be told from the untrimmed
ones. -/
theorem placeHosts_trimmed {t : Topology} {p : Pool} {placed : List Host} :
    placeHosts (p.claimDeclared (t.hosts.map Host.trimmed)) (t.hosts.map Host.trimmed) =
        .ok placed ↔
      t.hosts.countP (·.awaitsAddress p.subnet) ≤ (t.freeAddresses p).length ∧
        placed = t.placedHosts p := by
  have hcount : (t.hosts.map Host.trimmed).countP (·.awaitsAddress p.subnet) =
      t.hosts.countP (·.awaitsAddress p.subnet) := by
    rw [List.countP_map]
    exact List.countP_congr fun h _ => by simp
  rw [claimDeclared_map_trimmed, placeHosts_eq_ok, subnet_claimDeclared, hcount, placedHosts,
    freeAddresses]

/-- Trimming does not change who waits for an address. -/
theorem placeHosts_trimmed_eq_error {t : Topology} {p : Pool} {e : MeshError} :
    placeHosts (p.claimDeclared (t.hosts.map Host.trimmed)) (t.hosts.map Host.trimmed) =
        .error e ↔
      ∃ h, (t.hosts.filter (·.awaitsAddress p.subnet))[(t.freeAddresses p).length]? = some h ∧
        e = .subnetExhausted h.trimmedName p.subnet.text := by
  have hfilter : (t.hosts.map Host.trimmed).filter (·.awaitsAddress p.subnet) =
      (t.hosts.filter (·.awaitsAddress p.subnet)).map Host.trimmed := by
    rw [List.filter_map]
    exact congrArg (List.map Host.trimmed) (List.filter_congr fun h _ => by simp)
  rw [claimDeclared_map_trimmed, placeHosts_eq_error, subnet_claimDeclared, hfilter, freeAddresses]
  simp only [List.getElem?_map, Option.map_eq_some_iff]
  constructor
  · rintro ⟨_, ⟨h, hh, rfl⟩, rfl⟩
    exact ⟨h, hh, rfl⟩
  · rintro ⟨h, hh, rfl⟩
    exact ⟨_, ⟨h, hh, rfl⟩, rfl⟩

/-- The steps of which some can fail. -/
theorem resolve_eq (t : Topology) (d : Defaults) (draws : Draws) :
    t.resolve d draws = (t.withDefaultSubnet d).pool >>= fun p =>
      checkAllNames [] (t.normalized d).groups >>= fun _ =>
        placeHosts (p.claimDeclared (t.normalized d).hosts) (t.normalized d).hosts >>= fun placed =>
          pure {
            topology := (t.normalized d).withHosts
              ((placed.mapIdx fun i h => h.withUsableKeys (draws i)).map fun (h, _) =>
                h.withDefaults d)
            subnet := p.subnet
            rotations := rotationsOf draws placed } := rfl

/-- When a topology is resolved, and what comes out. -/
theorem resolve_eq_ok {t : Topology} {d : Defaults} {draws : Draws} {r : Resolved} :
    t.resolve d draws = .ok r ↔ ∃ p, (t.withDefaultSubnet d).pool = .ok p ∧
      NamesFit [] (t.hosts.map (·.trimmedName)) ∧
      t.hosts.countP (·.awaitsAddress p.subnet) ≤ (t.freeAddresses p).length ∧
      r = {
        topology := (t.withDefaultSubnet d).withHosts
          ((t.placedHosts p).mapIdx fun i h => h.settled d (draws i))
        subnet := p.subnet
        rotations := rotationsOf draws (t.placedHosts p) } := by
  have hsettled : ∀ placed : List Host, ((placed.mapIdx fun i h => h.withUsableKeys (draws i)).map
      fun (h, _) => h.withDefaults d) = placed.mapIdx fun i h => h.settled d (draws i) :=
    List.map_mapIdx _ _
  simp only [resolve_eq, Except.bind_eq_ok, checkAllNames_normalized, hosts_normalized,
    placeHosts_trimmed, withHosts_normalized, hsettled]
  constructor
  · rintro ⟨p, hp, seen, ⟨hfit, -⟩, placed, ⟨hle, rfl⟩, hr⟩
    exact ⟨p, hp, hfit, hle, (Except.ok.inj hr).symm⟩
  · rintro ⟨p, hp, hfit, hle, rfl⟩
    exact ⟨p, hp, _, ⟨hfit, rfl⟩, t.placedHosts p, ⟨hle, rfl⟩, rfl⟩

/-- When a topology is not resolved, and which of its faults is reported. -/
theorem resolve_eq_error {t : Topology} {d : Defaults} {draws : Draws} {e : MeshError} :
    t.resolve d draws = .error e ↔ (t.withDefaultSubnet d).pool = .error e ∨
      ∃ p, (t.withDefaultSubnet d).pool = .ok p ∧
        ((∃ group name, FirstMisnamed [] t.namesByGroup group name ∧ e = misnamedError group name) ∨
          NamesFit [] (t.hosts.map (·.trimmedName)) ∧
            ∃ h, (t.hosts.filter (·.awaitsAddress p.subnet))[(t.freeAddresses p).length]? =
                some h ∧
              e = .subnetExhausted h.trimmedName p.subnet.text) := by
  simp only [resolve_eq, Except.bind_eq_error, pure, Except.pure, hosts_normalized,
    checkAllNames_normalized_eq_error, placeHosts_trimmed_eq_error, checkAllNames_normalized,
    reduceCtorEq, and_false, exists_false, or_false]
  refine or_congr_right (exists_congr fun p => and_congr_right fun _ => or_congr_right ?_)
  exact ⟨fun ⟨_, ⟨hfit, _⟩, hrest⟩ => ⟨hfit, hrest⟩, fun ⟨hfit, hrest⟩ => ⟨_, ⟨hfit, rfl⟩, hrest⟩⟩

end Topology

namespace Mesh

variable {t : Topology} {d : Defaults} {draws : Draws} {m : Mesh}

/-- When a mesh is compiled, and what it is. -/
theorem compile_eq_ok : compile t d draws = .ok m ↔
    ∃ p, (t.withDefaultSubnet d).pool = .ok p ∧
      NamesFit [] (t.hosts.map (·.trimmedName)) ∧
      t.hosts.countP (·.awaitsAddress p.subnet) ≤ (t.freeAddresses p).length ∧
      m = {
        topology := (t.withDefaultSubnet d).withHosts
          ((t.placedHosts p).mapIdx fun i h => h.settled d (draws i))
        subnet := p.subnet
        rotations := rotationsOf draws (t.placedHosts p)
        persistentKeepalive := d.persistentKeepalive } := by
  rw [compile, Except.bind_pure_eq_ok]
  simp only [Topology.resolve_eq_ok]
  constructor
  · rintro ⟨r, ⟨p, hp, hfit, hle, rfl⟩, rfl⟩
    exact ⟨p, hp, hfit, hle, rfl⟩
  · rintro ⟨p, hp, hfit, hle, rfl⟩
    exact ⟨_, ⟨p, hp, hfit, hle, rfl⟩, rfl⟩

/-- A mesh is not compiled just when its topology is not resolved. -/
theorem compile_eq_error {e : MeshError} :
    compile t d draws = .error e ↔ t.resolve d draws = .error e := by
  rw [compile, Except.bind_pure_eq_error]

/-- Whether a mesh is compiled does not depend on what is drawn. -/
theorem exists_compile_eq_ok : (∃ m, compile t d draws = .ok m) ↔
    ∃ p, (t.withDefaultSubnet d).pool = .ok p ∧
      NamesFit [] (t.hosts.map (·.trimmedName)) ∧
      t.hosts.countP (·.awaitsAddress p.subnet) ≤ (t.freeAddresses p).length := by
  simp only [compile_eq_ok]
  constructor
  · rintro ⟨_, p, hp, hfit, hle, -⟩
    exact ⟨p, hp, hfit, hle⟩
  · rintro ⟨p, hp, hfit, hle⟩
    exact ⟨_, p, hp, hfit, hle, rfl⟩

/-- A compiled mesh is the topology with other hosts. -/
theorem topology_eq_of_compile (h : compile t d draws = .ok m) :
    m.topology = (t.withDefaultSubnet d).withHosts m.topology.hosts := by
  obtain ⟨p, -, -, -, rfl⟩ := compile_eq_ok.1 h
  rw [Topology.hosts_withHosts _ _ (by simp)]

section

/-! Of a topology, only the pool, the hosts and their names are looked at. -/

variable {t' : Topology} (hpool : (t'.withDefaultSubnet d).pool = (t.withDefaultSubnet d).pool)
  (hhosts : t'.hosts = t.hosts)

include hpool hhosts

/-- Topologies that agree in what is looked at fail alike. -/
theorem compile_eq_error_congr (hnames : t'.namesByGroup = t.namesByGroup) {e : MeshError} :
    compile t' d draws = .error e ↔ compile t d draws = .error e := by
  simp only [compile_eq_error, Topology.resolve_eq_error, Topology.freeAddresses, hpool, hhosts,
    hnames]

/-- Topologies that agree in what is looked at are given the same hosts. -/
theorem compile_eq_ok_congr (h : compile t d draws = .ok m) : compile t' d draws =
    .ok { m with topology := (t'.withDefaultSubnet d).withHosts m.topology.hosts } := by
  obtain ⟨p, hp, hfit, hle, rfl⟩ := compile_eq_ok.1 h
  have hplaced : t'.placedHosts p = t.placedHosts p := by
    simp only [Topology.placedHosts, Topology.freeAddresses, hhosts]
  refine compile_eq_ok.2 ⟨p, hpool.trans hp, hhosts ▸ hfit, ?_, ?_⟩
  · simpa only [Topology.freeAddresses, hhosts] using hle
  · rw [hplaced, Topology.hosts_withHosts _ _ (by simp)]

end

/-- A mesh of four hosts: two of them wait for an address, one declares a usable address, and one
ignores the defaults. -/
def mixedMesh : Topology where
  name := "mixed"
  address := some "10.0.0.0/29"
  groups := [
    { name := "a", visibility := .relayed, hosts := [
      { server := { hostname := "a1" } },
      { server := { hostname := "a2" }, address := some " 10.0.0.2/24 " }] },
    { name := "b", visibility := .wan, hosts := [
      { server := { hostname := "b1" }, address := some "10.0.0.1", ignoreDefault := true },
      { server := { hostname := "b2" }, address := some "nowhere" }] }]

/-- The mesh is compiled with any default for the table, whatever is drawn. -/
theorem exists_compile_mixedMesh (table : Option String) (draws : Draws) :
    ∃ m, compile mixedMesh { table := table } draws = .ok m := by
  have hpool : (mixedMesh.withDefaultSubnet {}).pool =
      .ok (Pool.ofSubnet ⟨Ipv4.ofOctets 10 0 0 0, 29, by decide⟩) := by decide +kernel
  exact exists_compile_eq_ok.2 ⟨_, hpool, by decide +kernel, by decide +kernel⟩

/-- The hosts of a compiled mesh, each from the host at its position before. -/
theorem hosts_of_compile (h : compile t d draws = .ok m) :
    ∃ p, (t.withDefaultSubnet d).pool = .ok p ∧ p.subnet = m.subnet ∧
      t.hosts.countP (·.awaitsAddress m.subnet) ≤ (t.freeAddresses p).length ∧
      m.topology.hosts = t.hosts.mapIdx fun i host =>
        (host.trimmed.withAddressAt m.subnet (t.freeAddresses p)
          (waitingBefore m.subnet t.hosts i)).settled d (draws i) := by
  obtain ⟨p, hp, -, hle, rfl⟩ := compile_eq_ok.1 h
  refine ⟨p, hp, rfl, hle, ?_⟩
  have hwaiting : ∀ i, waitingBefore p.subnet (t.hosts.map Host.trimmed) i =
      waitingBefore p.subnet t.hosts i := by
    intro i
    rw [waitingBefore, waitingBefore, ← List.map_take, List.countP_map]
    exact List.countP_congr fun h _ => by simp
  rw [Topology.hosts_withHosts _ _ (by simp), Topology.placedHosts, fillAddresses,
    List.mapIdx_mapIdx, List.mapIdx_map]
  simp only [hwaiting, Function.comp_apply]

/-- The subnet of a compiled mesh is the one of its topology and defaults. -/
theorem hasSubnet_of_compile (h : compile t d draws = .ok m) : t.HasSubnet d m.subnet := by
  obtain ⟨p, hp, -, -, rfl⟩ := compile_eq_ok.1 h
  obtain ⟨s, hs, rfl⟩ := Topology.pool_withDefaultSubnet_eq_ok.1 hp
  exact hs

/-- A compiled mesh has the groups of the topology, with as many hosts each. -/
theorem map_shape_groups_of_compile (h : compile t d draws = .ok m) :
    m.topology.groups.map Topology.shape = t.groups.map Topology.shape := by
  obtain ⟨p, -, -, -, rfl⟩ := compile_eq_ok.1 h
  refine Topology.map_shape_refill _ _ ?_
  rw [List.length_mapIdx, Topology.length_placedHosts]
  rfl

/-- The names of a compiled mesh's hosts are the trimmed ones of the topology. -/
theorem hostnames_of_compile (h : compile t d draws = .ok m) :
    m.topology.hosts.map Host.hostname = t.hosts.map (·.trimmedName) := by
  obtain ⟨p, -, -, -, hhosts⟩ := hosts_of_compile h
  rw [hhosts, List.map_mapIdx, ← List.mapIdx_eq_map]
  simp only [Host.hostname, Host.server_settled, Host.server_withAddressAt]
  rfl

end Mesh

end TunnelMesh
