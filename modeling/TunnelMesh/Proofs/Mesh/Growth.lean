import Mathlib
import TunnelMesh.Proofs.Config.Lines
import TunnelMesh.Proofs.Mesh.Drawing
import TunnelMesh.Proofs.Mesh.Keys
import TunnelMesh.Proofs.Mesh.Stations

/-!
# Meshes that grow

A topology grows at its end: by a host in its last group, or by one in a new last group
(`Topology.GrowsBy`). Whatever the group, the list of hosts and the list of stations grow by one
entry at their ends (`Topology.GrowsBy.hosts_eq`, `Topology.GrowsBy.exists_stations_eq`). Hosts are
resolved in their order, each from what stands before it, so a new host at the end has no effect on
those before it as long as it declares none of the addresses that they may be given. What is drawn
for them is the same if it comes from one stream (`Topology.GrowsBy.drawsFrom_eq`). All that is new
for them is one more peer (`Mesh.GrownBy.config_eq`), at the end of the file
(`Config.ini_withPeer`).
-/

namespace TunnelMesh

/-! ## Configurations with a peer more -/

/-- The configuration with a peer added at its end. -/
def Config.withPeer (c : Config) (p : Peer) : Config :=
  { c with peers := c.peers ++ [p] }

/-- A text behind several others that are joined is joined to them. -/
theorem intercalate_concat (sep first last : String) (rest : List String) :
    sep.intercalate (first :: (rest ++ [last])) =
      sep.intercalate (first :: rest) ++ sep ++ last := by
  induction rest generalizing first with
  | nil =>
    rw [List.nil_append, String.intercalate_cons_cons, String.intercalate_singleton,
      String.intercalate_singleton]
  | cons second rest ih =>
    rw [List.cons_append, String.intercalate_cons_cons, ih second, String.intercalate_cons_cons]
    simp only [String.append_assoc]

/-- A peer that is added has its section at the end of the file, behind an empty line. -/
theorem Config.ini_withPeer (c : Config) (p : Peer) :
    (c.withPeer p).ini = c.ini ++ "\n" ++ p.ini ++ "\n" := by
  have hsections : (c.withPeer p).sections =
      c.interface.ini :: (c.peers.map Peer.ini ++ [p.ini]) := by
    rw [sections, withPeer, List.map_append, List.map_singleton]
  have hbreak : "\n\n" = "\n" ++ "\n" := rfl
  rw [ini, ini, hsections, intercalate_concat, sections, hbreak]
  simp only [String.append_assoc]

/-! ## Topologies with a host more -/

/-- A host that declares no usable address claims nothing. -/
theorem Pool.claimDeclared_concat {p : Pool} {h : Host} (hnone : ¬ h.DeclaresUsable p.subnet)
    (hs : List Host) : p.claimDeclared (hs ++ [h]) = p.claimDeclared hs := by
  have hsplit : p.claimDeclared (hs ++ [h]) =
      (p.claimDeclared hs).claimAll ([h].filterMap Host.declared?) := by
    rw [claimDeclared, List.filterMap_append, claimAll, List.foldl_append]
    rfl
  rw [hsplit]
  cases hdeclared : h.declared? with
  | none =>
    rw [List.filterMap_cons_none hdeclared]
    rfl
  | some a =>
    have husable : ¬ (p.claimDeclared hs).subnet.isUsable a = true := by
      rw [subnet_claimDeclared]
      exact fun husable => hnone ⟨a, Host.declared?_eq_some.1 hdeclared, husable⟩
    rw [List.filterMap_cons_some hdeclared, List.filterMap_nil, claimAll, List.foldl_cons,
      List.foldl_nil, claim, if_neg husable]

/-- A host at the end is given its address after all others. -/
theorem fillAddresses_concat (s : Subnet) (free : List Ipv4) (hs : List Host) (h : Host) :
    fillAddresses s free (hs ++ [h]) =
      fillAddresses s free hs ++ [h.withAddressAt s free (hs.countP (·.awaitsAddress s))] := by
  have hbefore : (hs.mapIdx fun i host =>
      host.withAddressAt s free (waitingBefore s (hs ++ [h]) i)) =
      fillAddresses s free hs := by
    refine List.mapIdx_eq_mapIdx_iff.2 fun i hi => ?_
    rw [waitingBefore, waitingBefore, List.take_append_of_le_length hi.le]
  rw [fillAddresses, List.mapIdx_append_one, waitingBefore, List.take_left]
  exact congrArg (· ++ _) hbefore

/-- A host at the end changes nothing for those before it, whatever a step does with their draws. -/
theorem mapIdx_draws_concat {α : Type} (f : Draw → Host → α) {draws draws' : Draws}
    {hs : List Host} (hdraws : ∀ i < hs.length, draws' i = draws i) (h : Host) :
    ((hs ++ [h]).mapIdx fun i h => f (draws' i) h) =
      (hs.mapIdx fun i h => f (draws i) h) ++ [f (draws' hs.length) h] := by
  have hbefore : (hs.mapIdx fun i h => f (draws' i) h) = hs.mapIdx fun i h => f (draws i) h :=
    List.mapIdx_eq_mapIdx_iff.2 fun i hi => by rw [hdraws i hi]
  rw [List.mapIdx_append_one, hbefore]

/-- A host at the end is reported after all others, if it is given new keys. -/
theorem rotationsOf_concat {draws draws' : Draws} {hs : List Host}
    (hdraws : ∀ i < hs.length, draws' i = draws i) (h : Host) : rotationsOf draws' (hs ++ [h]) =
      rotationsOf draws hs ++ (h.rotation? (draws' hs.length)).toList := by
  rw [rotationsOf_eq, rotationsOf_eq, mapIdx_draws_concat Host.rotation? hdraws,
    ← List.concat_eq_append, List.reduceOption_concat]

/-- A host is reported under its name. -/
theorem Host.hostname_of_rotation? {draw : Draw} {h : Host} {r : Rotation}
    (hr : h.rotation? draw = some r) : r.hostname = h.hostname := by
  rw [rotation?] at hr
  split at hr
  · cases hr
  · obtain ⟨reason, -, rfl⟩ := Option.map_eq_some_iff.1 hr
    rfl

namespace Topology

/-- A topology is another one with a host added at its end, in the last group or in a new one of any
name and visibility. -/
def GrowsBy (t : Topology) (h : Host) (t' : Topology) : Prop :=
  t.withHost? (t.groups.length - 1) h = some t' ∨
    ∃ name visibility, t' = t.withGroup { name := name, visibility := visibility, hosts := [h] }

/-- A host is added to the last of several groups. -/
theorem modify_concat (gs : List Group) (g : Group) (h : Host) :
    (gs ++ [g]).modify ((gs ++ [g]).length - 1) (·.withHost h) = gs ++ [g.withHost h] := by
  rw [List.length_append, List.length_singleton, Nat.add_sub_cancel]
  induction gs with
  | nil => rfl
  | cons first gs ih => exact congrArg (first :: ·) ih

/-- A last group, which may be empty, with a host added at its end. -/
theorem growsBy_iff {t t' : Topology} {h : Host} : t.GrowsBy h t' ↔
    ∃ gs g, (t.groups = gs ++ [g] ∨ t.groups = gs ∧ g.hosts = []) ∧
      t' = { t with groups := gs ++ [g.withHost h] } := by
  rw [GrowsBy, withHost?]
  constructor
  · rintro (hlast | ⟨name, visibility, rfl⟩)
    · split at hlast
      · next hlt =>
        cases hlast
        obtain ⟨gs, g, hgs⟩ := List.eq_nil_or_concat' t.groups |>.resolve_left
          (List.ne_nil_of_length_pos (by omega))
        refine ⟨gs, g, .inl hgs, ?_⟩
        rw [hgs, modify_concat]
      · cases hlast
    · exact ⟨t.groups, { name := name, visibility := visibility, hosts := [] }, .inr ⟨rfl, rfl⟩,
        rfl⟩
  · rintro ⟨gs, g, hgs | ⟨hgs, hg⟩, rfl⟩
    · left
      rw [hgs, modify_concat, if_pos (by simp)]
    · refine .inr ⟨g.name, g.visibility, ?_⟩
      rw [withGroup, hgs, Group.withHost, hg, List.nil_append]

namespace GrowsBy

variable {t t' : Topology} {h : Host}

/-- A topology that grows has its new host behind all others. -/
theorem hosts_eq (hgrows : t.GrowsBy h t') : t'.hosts = t.hosts ++ [h] := by
  obtain ⟨gs, g, hgs, rfl⟩ := growsBy_iff.1 hgrows
  rw [hosts, hosts, List.flatMap_append, List.flatMap_singleton, Group.withHost]
  rcases hgs with hgs | ⟨hgs, hg⟩
  · rw [hgs, List.flatMap_append, List.flatMap_singleton, List.append_assoc]
  · rw [hgs, hg, List.nil_append]

/-- Of one stream, the hosts that were there before take what they took. -/
theorem drawsFrom_eq (hgrows : t.GrowsBy h t') (s : ByteStream) {i : Nat}
    (hi : i < t.hosts.length) : drawsFrom s t'.hosts i = drawsFrom s t.hosts i := by
  rw [hgrows.hosts_eq, drawsFrom_append s t.hosts [h] hi]

/-- What the groups are does not matter for the subnet. -/
theorem pool_eq (hgrows : t.GrowsBy h t') (d : Defaults) :
    (t'.withDefaultSubnet d).pool = (t.withDefaultSubnet d).pool := by
  obtain ⟨gs, g, -, rfl⟩ := growsBy_iff.1 hgrows
  rfl

/-- A topology that grows keeps its name. -/
theorem name_eq (hgrows : t.GrowsBy h t') : t'.name = t.name := by
  obtain ⟨gs, g, -, rfl⟩ := growsBy_iff.1 hgrows
  rfl

/-- The new host's station stands behind the others. -/
theorem exists_stations_eq (hgrows : t.GrowsBy h t') :
    ∃ s : Station, t'.stations = t.stations ++ [s] := by
  obtain ⟨gs, g, hgs, rfl⟩ := growsBy_iff.1 hgrows
  refine ⟨Station.ofHost h gs.length g g.hosts.length, ?_⟩
  have hgroup : (g.withHost h).hosts.mapIdx
      (fun j host => Station.ofHost host gs.length (g.withHost h) j) =
        (g.hosts.mapIdx fun j host => Station.ofHost host gs.length g j) ++
          [Station.ofHost h gs.length g g.hosts.length] :=
    List.mapIdx_append_one
  rw [stations, stations, List.mapIdx_append_one, List.flatten_append, List.flatten_singleton,
    hgroup, ← List.append_assoc]
  rcases hgs with hgs | ⟨hgs, hg⟩
  · rw [hgs, List.mapIdx_append_one, List.flatten_append, List.flatten_singleton]
  · rw [hgs, hg, List.mapIdx_nil, List.append_nil]

/-- The hosts before the new one are placed as without it. -/
theorem exists_placedHosts_eq (hgrows : t.GrowsBy h t') {p : Pool}
    (hnone : ¬ h.DeclaresUsable p.subnet) : ∃ new : Host,
      new.hostname = h.trimmedName ∧ t'.placedHosts p = t.placedHosts p ++ [new] := by
  have hfree : t'.freeAddresses p = t.freeAddresses p := by
    rw [freeAddresses, hgrows.hosts_eq, Pool.claimDeclared_concat hnone, freeAddresses]
  refine ⟨h.trimmed.withAddressAt p.subnet (t.freeAddresses p)
    ((t.hosts.map Host.trimmed).countP (·.awaitsAddress p.subnet)), ?_, ?_⟩
  · rw [Host.hostname, Host.server_withAddressAt]
    rfl
  · rw [placedHosts, hfree, hgrows.hosts_eq, List.map_append, List.map_singleton,
      fillAddresses_concat, placedHosts]

end GrowsBy

end Topology

/-! ## Meshes with a station more -/

namespace Mesh

/-- A mesh is another one with a station added at its end, which is the only one that may be
reported besides those that were. -/
structure GrownBy (m : Mesh) (s : Station) (m' : Mesh) : Prop where
  name : m'.topology.name = m.topology.name
  subnet : m'.subnet = m.subnet
  persistentKeepalive : m'.persistentKeepalive = m.persistentKeepalive
  stations : m'.stations = m.stations ++ [s]
  rotations : ∃ r : Option Rotation,
    m'.rotations = m.rotations ++ r.toList ∧ ∀ x ∈ r.toList, x.hostname = s.hostname

/-- All that is new for a station is one more peer. -/
theorem GrownBy.config_eq {m m' : Mesh} {s : Station} (hgrown : m.GrownBy s m') (own : Station) :
    m'.config own = (m.config own).withPeer (s.peer own m.persistentKeepalive) := by
  rw [Mesh.config_eq, Mesh.config_eq, hgrown.name, hgrown.persistentKeepalive, hgrown.stations,
    List.map_append, List.map_singleton, Config.withPeer]

variable {t t' : Topology} {h : Host} {d : Defaults} {draws draws' : Draws} {m m' : Mesh}

/-- The mesh of a grown topology is the mesh of the topology before with a station added. -/
theorem exists_grownBy (hgrows : t.GrowsBy h t') (hm : compile t d draws = .ok m)
    (hm' : compile t' d draws' = .ok m') (hdraws : ∀ i < t.hosts.length, draws' i = draws i)
    (hnone : ¬ h.DeclaresUsable m.subnet) :
    ∃ s : Station, s.hostname = h.trimmedName ∧ m.GrownBy s m' := by
  obtain ⟨p, hp, -, -, rfl⟩ := compile_eq_ok.1 hm
  obtain ⟨q, hq, -, -, rfl⟩ := compile_eq_ok.1 hm'
  obtain rfl : p = q := Except.ok.inj (hp.symm.trans (hgrows.pool_eq d ▸ hq))
  obtain ⟨s, hs⟩ := hgrows.exists_stations_eq
  obtain ⟨new, hname, hnew⟩ := hgrows.exists_placedHosts_eq hnone
  rw [← t.length_placedHosts p] at hdraws
  have hsettled : (new.settled d (draws' (t.placedHosts p).length)).hostname = new.hostname := by
    rw [Host.hostname, Host.server_settled, Host.hostname]
  refine ⟨s.withHost (new.settled d (draws' (t.placedHosts p).length)), hsettled.trans hname, {
    name := hgrows.name_eq
    subnet := rfl
    persistentKeepalive := rfl
    stations := ?_
    rotations := ⟨new.rotation? (draws' (t.placedHosts p).length), ?_, fun x hx => ?_⟩ }⟩
  · have hstations : (t'.withDefaultSubnet d).stations = (t.withDefaultSubnet d).stations ++ [s] :=
      hs
    rw [Mesh.stations, Mesh.stations, Topology.stations_withHosts _ (by simp),
      Topology.stations_withHosts _ (by simp), hstations, hnew,
      mapIdx_draws_concat (Host.settled d) hdraws,
      List.zipWith_append (by simp)]
    rfl
  · rw [hnew]
    exact rotationsOf_concat hdraws new
  · exact (Host.hostname_of_rotation? (Option.mem_toList.1 hx)).trans hsettled.symm

/-- Growing a mesh at its end leaves all hosts that were there as they were, with their keys and
their reports. Each has one more peer, for the new host, whose section is the last of the file. -/
theorem compile_growsBy (hgrows : t.GrowsBy h t') (hm : compile t d draws = .ok m)
    (hm' : compile t' d draws' = .ok m') (hdraws : ∀ i < t.hosts.length, draws' i = draws i)
    (hnone : ¬ h.DeclaresUsable m.subnet) :
    ∃ s : Station, s.hostname = h.trimmedName ∧ m.GrownBy s m' ∧
      ∀ own ∈ m.stations, m'.station? own.hostname = some own ∧
        ∃ c c' p, m.configFor own.hostname = some c ∧ m'.configFor own.hostname = some c' ∧
          p = s.peer own d.persistentKeepalive ∧ c' = c.withPeer p ∧
            c'.ini = c.ini ++ "\n" ++ p.ini ++ "\n" ∧
              (p.ini ++ "\n").toList =
                Ini.terminated ("[Peer]" :: p.fields.map Ini.fieldLine) := by
  obtain ⟨s, hname, hgrown⟩ := exists_grownBy hgrows hm hm' hdraws hnone
  have hkeepalive : m.persistentKeepalive = d.persistentKeepalive := by
    obtain ⟨p, -, -, -, rfl⟩ := compile_eq_ok.1 hm
    rfl
  refine ⟨s, hname, hgrown, fun own hown => ?_⟩
  have hown' : own ∈ m'.stations := by
    rw [hgrown.stations]
    exact List.mem_append_left _ hown
  refine ⟨station?_hostname hm' hown', m.config own, m'.config own, _, configFor_hostname hm hown,
    configFor_hostname hm' hown', rfl, hkeepalive ▸ hgrown.config_eq own, ?_, Peer.toList_ini _⟩
  rw [hgrown.config_eq own, Config.ini_withPeer, hkeepalive]

/-- A host that declares the highest address of the subnet, which is not usable. -/
def lateHost : Host where
  server := { hostname := " late " }
  address := some "10.0.0.7"

/-- A mesh of four hosts with one more, in a new group of the name of the first. -/
theorem compile_growsBy_mixedMesh : ∃ m m' s,
    compile mixedMesh {} (Draw.expand []) = .ok m ∧
      compile (mixedMesh.withGroup { name := "a", visibility := .relayed, hosts := [lateHost] }) {}
        (Draw.expand []) = .ok m' ∧
      ¬ lateHost.DeclaresUsable m.subnet ∧ s.hostname = "late" ∧ m.GrownBy s m' := by
  have hpool : (mixedMesh.withDefaultSubnet {}).pool =
      .ok (Pool.ofSubnet ⟨Ipv4.ofOctets 10 0 0 0, 29, by decide⟩) := by decide +kernel
  obtain ⟨m, hm⟩ := exists_compile_mixedMesh none (Draw.expand [])
  obtain ⟨m', hm'⟩ : ∃ m', compile
      (mixedMesh.withGroup { name := "a", visibility := .relayed, hosts := [lateHost] }) {}
        (Draw.expand []) = .ok m' :=
    exists_compile_eq_ok.2 ⟨_, hpool, by decide +kernel, by decide +kernel⟩
  have hnone : ¬ lateHost.DeclaresUsable m.subnet := by
    obtain ⟨p, hp, hsubnet, -⟩ := hosts_of_compile hm
    obtain rfl := Except.ok.inj (hpool.symm.trans hp)
    rw [← hsubnet]
    decide +kernel
  obtain ⟨s, hname, hgrown, -⟩ :=
    compile_growsBy (.inr ⟨_, _, rfl⟩) hm hm' (fun _ _ => rfl) hnone
  have htrimmed : lateHost.trimmedName = "late" := by decide +kernel
  exact ⟨m, m', s, hm, hm', hnone, hname.trans htrimmed, hgrown⟩

end Mesh

end TunnelMesh
