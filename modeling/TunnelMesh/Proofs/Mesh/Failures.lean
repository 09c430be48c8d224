import Mathlib
import TunnelMesh.Proofs.Mesh.Resolution
import TunnelMesh.Proofs.Net.Subnet

/-!
# When a mesh is not compiled

A topology can have several faults at once: no subnet or one that cannot be read, hosts without a
name or with a name that is taken, and more hosts that wait for an address than the subnet has
addresses to give. `Mesh.compile_failsJustWhen` says for each error when it is reported, in the
order in which the faults are looked for, and that a topology without faults is compiled.
-/

namespace TunnelMesh

namespace Topology

/-- The hosts that are to be given an address, in order. -/
def waiting (t : Topology) (s : Subnet) : List Host :=
  t.hosts.filter (·.awaitsAddress s)

/-- The usable addresses of a subnet that no host declares. -/
def undeclared (t : Topology) (s : Subnet) : List Ipv4 :=
  s.usable.filter fun a => ∀ h ∈ t.hosts, ¬ h.DeclaresAddress a

/-- What a pool has free when all declared addresses are claimed is what no host declares. -/
theorem freeAddresses_eq_undeclared (t : Topology) (s : Subnet) :
    t.freeAddresses ⟨s, []⟩ = t.undeclared s := by
  rw [freeAddresses, Pool.free, subnet_claimDeclared, undeclared]
  refine List.filter_congr fun a ha => ?_
  have husable := Subnet.mem_usable.1 ha
  rw [Bool.eq_iff_iff, Bool.not_eq_true', ← Bool.not_eq_true, Pool.claimDeclared,
    Pool.isClaimed_claimAll, List.mem_filterMap, decide_eq_true_eq]
  simp [husable, Pool.isClaimed, Host.declared?_eq_some]

end Topology

/-- The error for which a mesh is not compiled, if there is one, in the order in which the faults
are looked for. -/
structure FailsJustWhen (t : Topology) (d : Defaults) (outcome : Except MeshError Mesh) : Prop where
  /-- Neither the topology nor the defaults have an address. -/
  missingSubnet : outcome = .error .missingSubnet ↔
    Text.IsOpen t.address ∧ Text.IsOpen d.address
  /-- There is an address, but with the netmask it denotes no subnet. -/
  invalidSubnet : ¬ (Text.IsOpen t.address ∧ Text.IsOpen d.address) →
    ((∃ defect, outcome = .error (.invalidSubnet defect)) ↔ ∀ s, ¬ t.HasSubnet d s)
  /-- The first misnamed host has no name. -/
  missingHostname : ∀ s, t.HasSubnet d s → ∀ group,
    outcome = .error (.missingHostname group) ↔ FirstMisnamed [] t.namesByGroup group ""
  /-- The first misnamed host has the name of a host before it. -/
  duplicateHostname : ∀ s, t.HasSubnet d s → ∀ name,
    outcome = .error (.duplicateHostname name) ↔
      name ≠ "" ∧ ∃ group, FirstMisnamed [] t.namesByGroup group name
  /-- No host is misnamed, and a waiting host stands behind as many others as there are addresses
  that no host declares. -/
  subnetExhausted : ∀ s, t.HasSubnet d s →
    (∀ group name, ¬ FirstMisnamed [] t.namesByGroup group name) → ∀ hostname subnet,
      outcome = .error (.subnetExhausted hostname subnet) ↔
        ∃ h, (t.waiting s)[(t.undeclared s).length]? = some h ∧
          hostname = Text.trim h.server.hostname ∧ subnet = s.text
  /-- No host is misnamed, and there are enough addresses. -/
  compiled : ∀ s, t.HasSubnet d s →
    (∀ group name, ¬ FirstMisnamed [] t.namesByGroup group name) →
      ((∃ m, outcome = .ok m) ↔ (t.waiting s).length ≤ (t.undeclared s).length)

namespace Mesh

variable {t : Topology} {d : Defaults} {draws : Draws} {s : Subnet} {e : MeshError}

/-- The subnet of a topology is one only. -/
theorem pool_of_hasSubnet (hs : t.HasSubnet d s) : (t.withDefaultSubnet d).pool = .ok ⟨s, []⟩ :=
  Topology.pool_withDefaultSubnet_eq_ok.2 ⟨s, hs, rfl⟩

/-- Where the subnet is not at fault, the names or the number of hosts are. -/
theorem compile_eq_error_of_hasSubnet (hs : t.HasSubnet d s) : compile t d draws = .error e ↔
    (∃ group name, FirstMisnamed [] t.namesByGroup group name ∧ e = misnamedError group name) ∨
      (∀ group name, ¬ FirstMisnamed [] t.namesByGroup group name) ∧
        ∃ h, (t.waiting s)[(t.undeclared s).length]? = some h ∧
          e = .subnetExhausted h.trimmedName s.text := by
  rw [compile_eq_error, Topology.resolve_eq_error, pool_of_hasSubnet hs,
    ← namesFit_iff_forall_not_firstMisnamed, Topology.map_snd_namesByGroup]
  simp only [reduceCtorEq, false_or, Except.ok.injEq, exists_eq_left',
    Topology.freeAddresses_eq_undeclared, Topology.waiting]

/-- With a subnet, a topology is compiled just when no name is at fault and the addresses reach. -/
theorem exists_compile_of_hasSubnet (hs : t.HasSubnet d s) : (∃ m, compile t d draws = .ok m) ↔
    (∀ group name, ¬ FirstMisnamed [] t.namesByGroup group name) ∧
      (t.waiting s).length ≤ (t.undeclared s).length := by
  rw [exists_compile_eq_ok, pool_of_hasSubnet hs, ← namesFit_iff_forall_not_firstMisnamed,
    Topology.map_snd_namesByGroup]
  simp only [Except.ok.injEq, exists_eq_left', Topology.freeAddresses_eq_undeclared,
    Topology.waiting, List.countP_eq_length_filter]

/-- A topology that has a subnet has an address, and the subnet is not at fault. -/
theorem not_subnetFault_of_hasSubnet (hs : t.HasSubnet d s) (draws : Draws) :
    ¬ (Text.IsOpen t.address ∧ Text.IsOpen d.address) ∧
      compile t d draws ≠ .error .missingSubnet ∧
        ∀ defect, compile t d draws ≠ .error (.invalidSubnet defect) := by
  refine ⟨fun hunset => ?_, fun h => ?_, fun defect h => ?_⟩
  · have hopen : Text.IsOpen (if Text.IsOpen t.address then d.address else t.address) := by
      rw [if_pos hunset.1]
      exact hunset.2
    cases hs with
    | cidr haddress => simp [hopen.shown_eq] at haddress
    | masked haddress => simp [hopen.shown_eq] at haddress
  · rcases (compile_eq_error_of_hasSubnet hs).1 h with ⟨group, name, -, he⟩ | ⟨-, _, -, he⟩
    · exact missingSubnet_ne_misnamedError group name he
    · cases he
  · rcases (compile_eq_error_of_hasSubnet hs).1 h with ⟨group, name, -, he⟩ | ⟨-, _, -, he⟩
    · exact invalidSubnet_ne_misnamedError defect group name he
    · cases he

/-- Where there is no subnet, this is what is reported. -/
theorem compile_of_not_hasSubnet (hnone : ∀ s, ¬ t.HasSubnet d s) (draws : Draws) :
    ((Text.IsOpen t.address ∧ Text.IsOpen d.address) ∧
        compile t d draws = .error .missingSubnet) ∨
      ¬ (Text.IsOpen t.address ∧ Text.IsOpen d.address) ∧
        ∃ defect, compile t d draws = .error (.invalidSubnet defect) := by
  cases hpool : (t.withDefaultSubnet d).pool with
  | ok p =>
    obtain ⟨s, hs, -⟩ := Topology.pool_withDefaultSubnet_eq_ok.1 hpool
    exact absurd hs (hnone s)
  | error e =>
    have hfails : compile t d draws = .error e :=
      compile_eq_error.2 (Topology.resolve_eq_error.2 (.inl hpool))
    have hopen : Text.IsOpen (t.withDefaultSubnet d).address ↔
        Text.IsOpen t.address ∧ Text.IsOpen d.address := isOpen_orDefault
    rw [← hopen]
    rcases Topology.pool_eq_error hpool with ⟨hopen, rfl⟩ | ⟨hset, defect, rfl⟩
    · exact .inl ⟨hopen, hfails⟩
    · exact .inr ⟨hset, defect, hfails⟩

/-- Compiling fails just when a topology has a fault, and reports the fault that is looked for
first. -/
theorem compile_failsJustWhen (t : Topology) (d : Defaults) (draws : Draws) :
    FailsJustWhen t d (compile t d draws) where
  missingSubnet := by
    by_cases hsubnet : ∃ s, t.HasSubnet d s
    · obtain ⟨s, hs⟩ := hsubnet
      obtain ⟨hset, hmissing, -⟩ := not_subnetFault_of_hasSubnet hs draws
      exact iff_of_false hmissing hset
    · rw [not_exists] at hsubnet
      rcases compile_of_not_hasSubnet hsubnet draws with ⟨hopen, h⟩ | ⟨hset, defect, h⟩
      · exact iff_of_true h hopen
      · exact iff_of_false (by simp [h]) hset
  invalidSubnet hset := by
    by_cases hsubnet : ∃ s, t.HasSubnet d s
    · obtain ⟨s, hs⟩ := hsubnet
      obtain ⟨-, -, hinvalid⟩ := not_subnetFault_of_hasSubnet hs draws
      exact iff_of_false (not_exists.2 hinvalid) fun hnone => hnone s hs
    · rw [not_exists] at hsubnet
      rcases compile_of_not_hasSubnet hsubnet draws with ⟨hopen, -⟩ | ⟨-, h⟩
      · exact absurd hopen hset
      · exact iff_of_true h hsubnet
  missingHostname s hs group := by
    rw [compile_eq_error_of_hasSubnet hs]
    constructor
    · rintro (⟨g, name, hmisnamed, he⟩ | ⟨-, _, -, he⟩)
      · obtain ⟨rfl, rfl⟩ := missingHostname_eq_misnamedError.1 he
        exact hmisnamed
      · cases he
    · exact fun hmisnamed => .inl ⟨group, "", hmisnamed, rfl⟩
  duplicateHostname s hs name := by
    rw [compile_eq_error_of_hasSubnet hs]
    constructor
    · rintro (⟨g, n, hmisnamed, he⟩ | ⟨-, _, -, he⟩)
      · obtain ⟨hname, rfl⟩ := duplicateHostname_eq_misnamedError.1 he
        exact ⟨hname, g, hmisnamed⟩
      · cases he
    · rintro ⟨hname, group, hmisnamed⟩
      exact .inl ⟨group, name, hmisnamed, duplicateHostname_eq_misnamedError.2 ⟨hname, rfl⟩⟩
  subnetExhausted s hs hnames hostname subnet := by
    rw [compile_eq_error_of_hasSubnet hs]
    constructor
    · rintro (⟨g, n, hmisnamed, -⟩ | ⟨-, h, hh, he⟩)
      · exact absurd hmisnamed (hnames g n)
      · cases he
        exact ⟨h, hh, rfl, rfl⟩
    · rintro ⟨h, hh, rfl, rfl⟩
      exact .inr ⟨hnames, h, hh, rfl⟩
  compiled s hs hnames := by
    rw [exists_compile_of_hasSubnet hs, and_iff_right hnames]

/-- A mesh of two addresses: one is declared by a host that ignores the defaults, so the second of
the hosts that wait for one is left without. -/
def crowdedMesh : Topology where
  name := "crowded"
  address := some "10.0.0.0/30"
  groups := [
    { name := "a", visibility := .openNat, hosts := [
      { server := { hostname := "a1" } },
      { server := { hostname := "a2" }, address := some "10.0.0.2", ignoreDefault := true },
      { server := { hostname := "a3" }, address := some "10.0.0.3" }] }]

/-- The subnet of the crowded mesh is exhausted at its last host. -/
theorem compile_failsJustWhen_crowdedMesh :
    compile crowdedMesh {} (Draw.expand []) = .error (.subnetExhausted "a3" "10.0.0.0/30") := by
  have hpool : (crowdedMesh.withDefaultSubnet {}).pool =
      .ok ⟨⟨Ipv4.ofOctets 10 0 0 0, 30, by decide⟩, []⟩ := by decide +kernel
  obtain ⟨s, hs, heq⟩ := Topology.pool_withDefaultSubnet_eq_ok.1 hpool
  cases heq
  have hnames : ∀ group name, ¬ FirstMisnamed [] crowdedMesh.namesByGroup group name :=
    namesFit_iff_forall_not_firstMisnamed.1 (by decide +kernel)
  refine ((compile_failsJustWhen crowdedMesh {} (Draw.expand [])).subnetExhausted
    _ hs hnames _ _).2 ?_
  exact ⟨_, rfl, by decide +kernel, by decide +kernel⟩

end Mesh

end TunnelMesh
