import Mathlib
import TunnelMesh.Proofs.Command.Generate
import TunnelMesh.Proofs.Mesh.Stations
import TunnelMesh.Proofs.Topology.Document

/-!
# Views of a mesh

The names of a compiled mesh differ, so whatever shows the mesh shows the same: the list of
configurations, the look-up by name and the list in the order of the names
(`Mesh.viewsAgree_of_compile`). Of the last one this is because a configuration that is added under
a new name leaves those before it where they are (`Mesh.foldl_insertByName`). `Command.views_agree`
adds the texts of a request's mesh and the configuration that is shown of a topology in a file.
-/

namespace TunnelMesh

namespace Mesh

/-! ## In the order of the names -/

/-- The names of pairs ascend. -/
def Ascending {α : Type} (pairs : List (String × α)) : Prop :=
  pairs.Pairwise fun p q => p.1 < q.1

section

variable {α : Type} {name : String} {a : α} {pairs acc : List (String × α)}

/-- Under a new name a pair is added. -/
theorem insertByName_perm (hnew : name ∉ pairs.map Prod.fst) :
    (insertByName name a pairs).Perm ((name, a) :: pairs) := by
  induction pairs with
  | nil => exact .refl _
  | cons p pairs ih =>
    rw [List.map_cons, List.mem_cons, not_or] at hnew
    rw [insertByName]
    split_ifs with hlt heq
    · exact .refl _
    · exact absurd heq hnew.1
    · exact ((ih hnew.2).cons p).trans (.swap _ _ _)

/-- A pair of a new name is put where the names stay ascending. -/
theorem ascending_insertByName (hnew : name ∉ pairs.map Prod.fst) (h : Ascending pairs) :
    Ascending (insertByName name a pairs) := by
  induction pairs with
  | nil => exact List.pairwise_singleton _ _
  | cons p pairs ih =>
    rw [List.map_cons, List.mem_cons, not_or] at hnew
    have hfirst : ∀ q ∈ pairs, p.1 < q.1 := fun _ hq => List.rel_of_pairwise_cons h hq
    rw [insertByName]
    split_ifs with hlt heq
    · refine h.cons fun q hq => ?_
      rcases List.mem_cons.1 hq with rfl | hq
      · exact hlt
      · exact hlt.trans (hfirst q hq)
    · exact absurd heq hnew.1
    · refine (ih hnew.2 h.of_cons).cons fun q hq => ?_
      rcases List.mem_cons.1 ((insertByName_perm hnew.2).mem_iff.1 hq) with rfl | hq
      · exact lt_of_le_of_ne (not_lt.1 hlt) (Ne.symm heq)
      · exact hfirst q hq

/-- Pairs of different names are all kept, in the order of the names. -/
theorem foldl_insertByName (hnames : ((pairs ++ acc).map Prod.fst).Nodup) (hacc : Ascending acc) :
    (pairs.foldl (fun acc (name, a) => insertByName name a acc) acc).Perm (pairs ++ acc) ∧
      Ascending (pairs.foldl (fun acc (name, a) => insertByName name a acc) acc) := by
  induction pairs generalizing acc with
  | nil => exact ⟨.refl _, hacc⟩
  | cons p pairs ih =>
    have hmiddle : (p :: pairs ++ acc).Perm (pairs ++ p :: acc) := List.perm_middle.symm
    have hrest := (hmiddle.map Prod.fst).nodup_iff.1 hnames
    have hnew : p.1 ∉ acc.map Prod.fst := by
      rw [List.map_append, List.map_cons] at hrest
      exact (List.nodup_cons.1 hrest.of_append_right).1
    have hinsert : (pairs ++ p :: acc).Perm (pairs ++ insertByName p.1 p.2 acc) :=
      (insertByName_perm hnew).symm.append_left pairs
    obtain ⟨hperm, hascending⟩ := ih ((hinsert.map Prod.fst).nodup_iff.1 hrest)
      (ascending_insertByName hnew hacc)
    exact ⟨hperm.trans (hmiddle.trans hinsert).symm, hascending⟩

end

/-! ## All views -/

/-- All views of a mesh show the hosts of a topology, and of each host the same configuration. -/
structure ViewsAgree (m : Mesh) (t : Topology) : Prop where
  /-- The names are those of the topology, in its order and without blanks at their ends. -/
  hostnames_eq : m.hostnames = t.hosts.map fun h => Text.trim h.hostname
  hostnames_ne_empty : ∀ name ∈ m.hostnames, name ≠ ""
  hostnames_nodup : m.hostnames.Nodup
  /-- A host is found under its name, and nothing under any other text. -/
  station?_eq_some : ∀ name s, m.station? name = some s ↔ s ∈ m.stations ∧ s.hostname = name
  station?_isSome : ∀ name, (m.station? name).isSome = true ↔ name ∈ m.hostnames
  configFor_isSome : ∀ name, (m.configFor name).isSome = true ↔ name ∈ m.hostnames
  /-- The configuration of a name is the one that stands beside it in the list. -/
  configFor_eq_some : ∀ name c, m.configFor name = some c ↔ (name, c) ∈ m.configs
  map_fst_configs : m.configs.map Prod.fst = m.hostnames
  /-- In the order of the names stand the same pairs. -/
  configsByName_perm : m.configsByName.Perm m.configs
  configsByName_ascending : Ascending m.configsByName
  /-- A configuration has the name of its host, and its peers are all hosts in order. -/
  named : ∀ name c, (name, c) ∈ m.configs →
    c.hostname = name ∧ c.peers.map Peer.name = m.hostnames

variable {t : Topology} {d : Defaults} {draws : Draws} {m : Mesh}

/-- The names of the stations are those of the hosts, in order. -/
theorem hostnames_eq_map (m : Mesh) : m.hostnames = m.topology.hosts.map Host.hostname :=
  m.topology.map_hostname_stations

/-- A station is found under its name only. -/
theorem station?_eq_some_iff (h : compile t d draws = .ok m) {name : String} {s : Station} :
    m.station? name = some s ↔ s ∈ m.stations ∧ s.hostname = name := by
  constructor
  · intro hfind
    rw [station?_eq_find?] at hfind
    have hmem := List.mem_reverse.1 (List.mem_of_find?_eq_some hfind)
    exact ⟨hmem, by simpa using List.find?_some hfind⟩
  · rintro ⟨hs, rfl⟩
    exact station?_hostname h hs

/-- A host is found just when its name is among those of the mesh. -/
theorem station?_isSome_iff (h : compile t d draws = .ok m) {name : String} :
    (m.station? name).isSome = true ↔ name ∈ m.hostnames := by
  simp only [Option.isSome_iff_exists, station?_eq_some_iff h, hostnames, List.mem_map]

/-- The configuration of a name is that of the station of the name. -/
theorem configFor_eq_some_iff (h : compile t d draws = .ok m) {name : String} {c : Config} :
    m.configFor name = some c ↔ (name, c) ∈ m.configs := by
  rw [configFor, Option.map_eq_some_iff, configs_eq, List.mem_map]
  simp only [station?_eq_some_iff h, Prod.mk.injEq, and_assoc]

/-- All views of a compiled mesh agree. -/
theorem viewsAgree_of_compile (h : compile t d draws = .ok m) : m.ViewsAgree t := by
  have hfit := namesFit_of_compile h
  rw [← hostnames_eq_map] at hfit
  have hfirsts : m.configs.map Prod.fst = m.hostnames := by
    rw [configs_eq, List.map_map]
    rfl
  have hnodup : ((m.configs ++ []).map Prod.fst).Nodup := by
    rw [List.append_nil, hfirsts]
    exact hfit.2.1
  obtain ⟨hperm, hascending⟩ := foldl_insertByName hnodup List.Pairwise.nil
  exact {
    hostnames_eq := (hostnames_eq_map m).trans (hostnames_of_compile h)
    hostnames_ne_empty := fun name hname hempty => hfit.1 (hempty ▸ hname)
    hostnames_nodup := hfit.2.1
    station?_eq_some := fun _ _ => station?_eq_some_iff h
    station?_isSome := fun _ => station?_isSome_iff h
    configFor_isSome := fun _ => by rw [configFor, Option.isSome_map, station?_isSome_iff h]
    configFor_eq_some := fun _ _ => configFor_eq_some_iff h
    map_fst_configs := hfirsts
    configsByName_perm := hperm.trans (.of_eq (List.append_nil _))
    configsByName_ascending := hascending
    named := by
      intro name c hc
      rw [configs_eq, List.mem_map] at hc
      obtain ⟨s, -, hs⟩ := hc
      cases hs
      refine ⟨rfl, ?_⟩
      rw [peers_config, List.map_map]
      rfl }

end Mesh

namespace Command

variable {t : Topology} {d : Defaults} {draws : Draws} {m : Mesh}

/-- The configuration of a host is shown of a topology in a file, and no file is touched. -/
theorem outcome_configOf {tree : FileTree} {args : ShowArgs}
    (hload : Runs (loadMesh FileTree.access args.topology d draws) tree m tree) :
    outcome (configOf FileTree.access draws d args) tree =
      ((m.configFor args.hostname).elim (.error (.hostNotFound args.hostname)) .ok, tree) := by
  rw [Runs] at hload
  rw [configOf, outcome_bind, hload]
  dsimp only
  cases m.configFor args.hostname <;> rfl

/-- All views of a mesh agree, also those of requests and of topologies in files. -/
theorem views_agree (h : Mesh.compile t d draws = .ok m) :
    m.ViewsAgree t ∧
      Request.generate ⟨d, t⟩ draws = .ok (m.configs.map fun (name, c) => (name, c.ini)) ∧
        ∀ (tree : FileTree) (args : ShowArgs) (text : String),
          tree.read args.topology = .ok (Text.utf8 text) → Topology.ofJson text = .ok t →
            (∀ c, m.configFor args.hostname = some c →
              outcome (configOf FileTree.access draws d args) tree = (.ok c, tree)) ∧
            (m.configFor args.hostname = none →
              outcome (configOf FileTree.access draws d args) tree =
                (.error (.hostNotFound args.hostname), tree)) := by
  refine ⟨Mesh.viewsAgree_of_compile h, ?_, ?_⟩
  · rw [Request.generate, h]
    rfl
  · intro tree args text hread hjson
    have hload := runs_loadMesh.2 ⟨text, t, hread, hjson, h, rfl⟩
    rw [outcome_configOf hload]
    constructor
    · intro c hc
      rw [hc, Option.elim_some]
    · intro hnone
      rw [hnone, Option.elim_none]

/-- A tree with a mesh of which one host ignores the defaults. -/
def mixedTree : FileTree where
  workDir := []
  dirs := []
  files := [(["mesh.json"], Text.utf8 (Mesh.mixedMesh.pretty ++ "\n"))]

/-- One of its hosts is shown, and a name of no host is refused. -/
theorem views_agree_mixedTree : ∃ m c,
    Mesh.compile Mesh.mixedMesh {} (Draw.expand []) = .ok m ∧
      m.hostnames = ["a1", "a2", "b1", "b2"] ∧ m.configFor "b1" = some c ∧
        outcome (configOf FileTree.access (Draw.expand []) {} ⟨"mesh.json", "b1", {}⟩) mixedTree =
          (.ok c, mixedTree) ∧
        outcome (configOf FileTree.access (Draw.expand []) {} ⟨"mesh.json", "b3", {}⟩) mixedTree =
          (.error (.hostNotFound "b3"), mixedTree) := by
  obtain ⟨m, hm⟩ := Mesh.exists_compile_mixedMesh none (Draw.expand [])
  obtain ⟨hviews, -, hshow⟩ := views_agree hm
  have hnames : m.hostnames = ["a1", "a2", "b1", "b2"] :=
    hviews.hostnames_eq.trans (by decide)
  have hread : mixedTree.read "mesh.json" = .ok (Text.utf8 (Mesh.mixedMesh.pretty ++ "\n")) :=
    FileTree.read_eq_ok.2 ⟨["mesh.json"], by decide, rfl⟩
  obtain ⟨c, hc⟩ := Option.isSome_iff_exists.1 ((hviews.configFor_isSome "b1").2 (by simp [hnames]))
  have hnone : m.configFor "b3" = none := by
    rw [← Option.not_isSome_iff_eq_none, hviews.configFor_isSome, hnames]
    simp
  exact ⟨m, c, hm, hnames, hc,
    (hshow mixedTree ⟨"mesh.json", "b1", {}⟩ _ hread Mesh.mixedMesh.ofJson_pretty).1 c hc,
    (hshow mixedTree ⟨"mesh.json", "b3", {}⟩ _ hread Mesh.mixedMesh.ofJson_pretty).2 hnone⟩

end Command

end TunnelMesh
