import Mathlib
import TunnelMesh.Proofs.Command.Generate
import TunnelMesh.Proofs.Mesh.Recompile
import TunnelMesh.Proofs.Topology.Document

/-!
# Saved topologies

A topology that `generate` saves is the input of later runs. What is saved is read back as it was
resolved (`read_saved`), it is compiled again without new keys, and the same texts are planned for
the same paths (`planned_recompiled`), so that they are written over those of the first run byte for
byte, whatever has been done to the configurations in the meantime (`generate_repeats`).
-/

namespace TunnelMesh.Command

/-- A second run does again what a first one did that saved its topology in a file, without new
keys. -/
structure Repeats (file : String) (first second : Summary) (tree tree' : FileTree) : Prop where
  rekeyed : second.rekeyed = []
  network : second.network = first.network
  subnet : second.subnet = first.subnet
  /-- The hosts are the same in the same order, and so are the paths of their files. -/
  files : second.files = first.files
  /-- Each configuration is the same byte for byte, unless the topology was saved over it. -/
  contents : ∀ f ∈ first.files, tree.locate f.path ≠ tree.locate file → ∃ content,
    tree.read f.path = .ok content ∧ tree'.read f.path = .ok content

variable {t : Topology} {d : Defaults} {draws draws' : Draws} {m m' : Mesh}
  {tree tree' between : FileTree} {args : GenerateArgs} {file : String}

/-! ## The document -/

/-- The topology is written last, so that nothing is written over it. -/
theorem writeAll_saved (hsaved : args.resolved = some file)
    (hwrites : tree.writeAll (writesOf m args) = .ok tree') :
    ∃ written p, tree.writeAll ((planned args.output m.configs).map writeOf) = .ok written ∧
      tree.fileAt? file = some p ∧ tree' = written.put p (Text.utf8 (savedDocument m)) := by
  rw [writesOf, FileTree.writeAll_append_eq_ok, hsaved] at hwrites
  obtain ⟨written, hwritten, hlast⟩ := hwrites
  obtain ⟨p, hp, hput⟩ := FileTree.writeAll_cons_eq_ok.1 hlast
  rw [FileTree.fileAt?_congr (FileTree.sameDirs_of_writeAll hwritten)] at hp
  cases hput
  exact ⟨written, p, hwritten, hp, rfl⟩

/-- What is saved is read back as it was resolved. -/
theorem read_saved (hsaved : args.resolved = some file)
    (hwrites : tree.writeAll (writesOf m args) = .ok tree') :
    tree'.read file = .ok (Text.utf8 (savedDocument m)) := by
  have hdirs := FileTree.sameDirs_of_writeAll hwrites
  obtain ⟨written, p, -, hp, rfl⟩ := writeAll_saved hsaved hwrites
  refine FileTree.read_eq_ok.2 ⟨p, (FileTree.fileAt?_congr hdirs file).trans hp, ?_⟩
  rw [FileTree.content?_put, if_pos rfl]

/-! ## The second run -/

/-- The files of a mesh compiled again have the same paths and texts. -/
theorem planned_recompiled (h : Mesh.compile t d draws = .ok m)
    (hkeepalive : m'.persistentKeepalive = m.persistentKeepalive)
    (htopology : m'.topology = m.topology.withHosts (m.topology.hosts.map Host.trimmed))
    (output : String) : planned output m'.configs = planned output m.configs := by
  have hplanned : ∀ configs : List (String × Config), planned output configs =
      (configs.map fun c => (c.1, c.2.ini)).map fun f =>
        (⟨f.1, Path.join output (f.1 ++ ".conf")⟩, f.2) := fun configs => by
    rw [List.map_map]
    rfl
  rw [hplanned, hplanned, Mesh.map_ini_configs_recompiled h hkeepalive htopology]

/-- The names of a mesh compiled again may be those of files if they were before. -/
theorem isFileName_recompiled (hplanned : planned args.output m'.configs =
    planned args.output m.configs) (hnames : ∀ c ∈ m.configs, IsFileName c.1) :
    ∀ c ∈ m'.configs, IsFileName c.1 := by
  have hhostnames : ∀ configs : List (String × Config),
      (planned args.output configs).map (·.1.hostname) = configs.map Prod.fst := fun configs => by
    rw [planned, List.map_map]
    rfl
  have hsame : m'.configs.map Prod.fst = m.configs.map Prod.fst := by
    rw [← hhostnames, ← hhostnames, hplanned]
  rw [← List.forall_mem_map (f := Prod.fst) (P := IsFileName)] at hnames ⊢
  rwa [hsame]

/-- The arguments of a second run, which takes a file for its topology and may save it again. -/
def GenerateArgs.again (args : GenerateArgs) (file : String) (saved : Option String) :
    GenerateArgs :=
  { args with topology := file, resolved := saved }

section

-- What the first run wrote, and that the second one plans the same.
variable {made : FileTree} {saved : Option String}
  (hplanned : planned args.output m'.configs = planned args.output m.configs)
  (hwrites : made.writeAll (writesOf m args) = .ok tree') (hsaved : args.resolved = some file)
  (hagain : saved = none ∨ saved = some file) (hdirs : tree'.SameDirs between)

include hplanned hwrites hsaved hagain hdirs

/-- All that a second run writes can be written where the first one could write. -/
theorem exists_writeAll_again :
    ∃ tree'', between.writeAll (writesOf m' (args.again file saved)) = .ok tree'' := by
  have hbetween := (FileTree.sameDirs_of_writeAll hwrites).trans hdirs
  have hfirst := FileTree.exists_writeAll_eq_ok.1 ⟨tree', hwrites⟩
  refine FileTree.exists_writeAll_eq_ok.2 fun w hw => ?_
  rw [FileTree.fileAt?_congr hbetween]
  rcases List.mem_append.1 hw with hw | hw
  · rw [GenerateArgs.again, hplanned] at hw
    exact hfirst w (List.mem_append_left _ hw)
  · rcases hagain with rfl | rfl
    · cases hw
    · obtain rfl := List.mem_singleton.1 hw
      refine hfirst (file, Text.utf8 (savedDocument m)) (List.mem_append_right _ ?_)
      rw [hsaved]
      exact List.mem_singleton_self _

/-- Both runs leave the same content at every path of a configuration that is not the saved
topology's. -/
theorem exists_read_again {tree'' : FileTree} {f : WrittenFile}
    (hwrites' : between.writeAll (writesOf m' (args.again file saved)) = .ok tree'')
    (hf : f ∈ (planned args.output m.configs).map Prod.fst)
    (hapart : tree'.locate f.path ≠ tree'.locate file) :
    ∃ content, tree'.read f.path = .ok content ∧ tree''.read f.path = .ok content := by
  have hfirst := FileTree.sameDirs_of_writeAll hwrites
  have hbetween := hfirst.trans hdirs
  have hsecond := hbetween.trans (FileTree.sameDirs_of_writeAll hwrites')
  obtain ⟨written, q, hwritten, hq, rfl⟩ := writeAll_saved hsaved hwrites
  obtain ⟨written', hwritten', hlast⟩ := FileTree.writeAll_append_eq_ok.1 hwrites'
  rw [GenerateArgs.again, hplanned] at hwritten'
  obtain ⟨entry, hmem, rfl⟩ := List.mem_map.1 hf
  have hw : writeOf entry ∈ (planned args.output m.configs).map writeOf :=
    List.mem_map_of_mem hmem
  obtain ⟨p, hp⟩ := FileTree.exists_writeAll_eq_ok.1 ⟨written, hwritten⟩ _ hw
  -- two paths with one file would lead to one place
  have hpq : p ≠ q := by
    rintro rfl
    have hpath := FileTree.fileAt?_eq_some.1 ((FileTree.fileAt?_congr hfirst _).trans hp)
    have hfile := FileTree.fileAt?_eq_some.1 ((FileTree.fileAt?_congr hfirst _).trans hq)
    exact hapart (hpath.2.trans hfile.2.symm)
  obtain ⟨content, hcontent, hcontent'⟩ :=
    FileTree.exists_content?_writeAll hbetween hw hp hwritten hwritten'
  refine ⟨content, FileTree.read_eq_ok.2 ⟨p, (FileTree.fileAt?_congr hfirst _).trans hp, ?_⟩,
    FileTree.read_eq_ok.2 ⟨p, (FileTree.fileAt?_congr hsecond _).trans hp, ?_⟩⟩
  · rw [FileTree.content?_put, if_neg hpq, hcontent]
  · rw [FileTree.content?_writeAll_of_ne hlast, hcontent']
    intro w hw'
    rcases hagain with rfl | rfl
    · cases hw'
    · obtain rfl := List.mem_singleton.1 hw'
      rw [FileTree.fileAt?_congr (hbetween.trans (FileTree.sameDirs_of_writeAll hwritten')), hq]
      exact fun hsame => hpq (Option.some.inj hsame).symm

end

/-- A topology that was saved makes later runs repeat the first one. Between the runs all files but
the saved one may change, as long as the directories stay. -/
theorem generate_repeats {summary : Summary} {text : String}
    (hrun : Runs (generate FileTree.access draws d args) tree summary tree')
    (hsaved : args.resolved = some file)
    (hread : tree.read args.topology = .ok (Text.utf8 text)) (hjson : Topology.ofJson text = .ok t)
    (hmatch : t.KeptPairsMatch summary.rekeyed) (hdirs : tree'.SameDirs between)
    (hfile : between.read file = tree'.read file) (draws' : Draws) {saved : Option String}
    (hagain : saved = none ∨ saved = some file) :
    ∃ summary' tree'', Runs (generate FileTree.access draws' d (args.again file saved)) between
        summary' tree'' ∧
      Repeats file summary summary' tree' tree'' := by
  obtain ⟨text', t', m, made, hread', hjson', hcompile, hnames, hmade, hwrites, rfl⟩ :=
    runs_generate.1 hrun
  have htext : text = text' := by
    have hbytes := Except.ok.inj (hread.symm.trans hread')
    exact Except.ok.inj ((textOf_eq_ok.2 rfl).symm.trans (textOf_eq_ok.2 hbytes))
  subst htext
  obtain rfl : t = t' := Except.ok.inj (hjson.symm.trans hjson')
  have hkept : ∀ (i : Nat) (host : Host), m.topology.hosts[i]? = some host →
      host.ignoreDefault = true ∨ host.rekeyReason (draws' i) = none := fun i host hi =>
    Mesh.keys_kept_of_match hcompile hmatch (List.mem_of_getElem? hi) (draws' i)
  obtain ⟨m', hm', hrotations, hsubnet, hkeepalive, htopology⟩ :=
    Mesh.exists_recompile_of_kept hcompile hkept
  have hplanned := planned_recompiled hcompile hkeepalive htopology args.output
  obtain ⟨tree'', hwrites'⟩ := exists_writeAll_again hplanned hwrites hsaved hagain hdirs
  have hmadeAgain := FileTree.makeDirs_again hmade
    ((FileTree.sameDirs_of_writeAll hwrites).trans hdirs)
  refine ⟨summaryOf m' (args.again file saved), tree'', runs_generate.2 ⟨savedDocument m,
    m.topology, m', between, hfile.trans (read_saved hsaved hwrites), m.topology.ofJson_pretty, hm',
    isFileName_recompiled hplanned hnames, hmadeAgain, hwrites', rfl⟩, {
      rekeyed := ?_
      network := ?_
      subnet := ?_
      files := ?_
      contents := fun f hf hapart =>
        exists_read_again hplanned hwrites hsaved hagain hdirs hwrites' hf hapart }⟩
  · rw [summaryOf, Mesh.rekeyed, hrotations]
    rfl
  · rw [summaryOf, summaryOf, htopology]
    rfl
  · rw [summaryOf, summaryOf, hsubnet]
  · rw [summaryOf, summaryOf, GenerateArgs.again, hplanned]

/-- A tree with a topology of two hosts, the first of which has a pair of keys. -/
def keyedTree : FileTree where
  workDir := []
  dirs := []
  files := [(["mesh.json"], Text.utf8 (Mesh.keyedMesh.pretty ++ "\n"))]

/-- Its configurations are to be written beside it, and the topology is to be saved there too. -/
def keyedArgs : GenerateArgs where
  topology := "mesh.json"
  output := "."
  resolved := some "saved.json"

theorem read_keyedTree :
    keyedTree.read "mesh.json" = .ok (Text.utf8 (Mesh.keyedMesh.pretty ++ "\n")) :=
  FileTree.read_eq_ok.2 ⟨["mesh.json"], by decide, rfl⟩

/-- Its topology is generated wherever a directory can be made that takes the files. -/
theorem exists_runs_of_makeDirs {made : FileTree} (htopology : args.topology = "mesh.json")
    (hmade : keyedTree.makeDirs args.output = (.ok (), made))
    (hpaths : ∀ name ∈ ["a1", "a2"],
      (made.fileAt? (Path.join args.output (name ++ ".conf"))).isSome = true)
    (hresolved : ∀ path ∈ args.resolved, (made.fileAt? path).isSome = true) (draws : Draws) :
    ∃ summary tree', Runs (generate FileTree.access draws {} args) keyedTree summary tree' ∧
      summary.files =
        ["a1", "a2"].map fun name => ⟨name, Path.join args.output (name ++ ".conf")⟩ := by
  obtain ⟨m, hm⟩ := Mesh.exists_compile_keyedMesh draws
  have hnames : m.configs.map Prod.fst = ["a1", "a2"] :=
    (Mesh.map_fst_configs hm).trans (by decide)
  have hfileNames : ∀ name ∈ ["a1", "a2"], IsFileName name := by
    have hsafe : ∀ name ∈ ["a1", "a2"], fileName name = .ok (name ++ ".conf") := by decide
    exact fun name hname => (fileName_eq_ok.1 (hsafe name hname)).1
  rw [← hnames, List.forall_mem_map] at hfileNames hpaths
  obtain ⟨tree', hwrites⟩ : ∃ tree', made.writeAll (writesOf m args) = .ok tree' := by
    refine FileTree.exists_writeAll_eq_ok.2 fun w hw => Option.isSome_iff_exists.1 ?_
    rcases List.mem_append.1 hw with hw | hw
    · rw [planned, List.map_map, List.mem_map] at hw
      obtain ⟨c, hc, rfl⟩ := hw
      exact hpaths c hc
    · obtain ⟨path, hpath, rfl⟩ := List.mem_map.1 hw
      exact hresolved path (Option.mem_toList.1 hpath)
  refine ⟨summaryOf m args, tree', runs_generate.2 ⟨_, _, m, made, htopology ▸ read_keyedTree,
    Mesh.keyedMesh.ofJson_pretty, hm, hfileNames, hmade, hwrites, rfl⟩, ?_⟩
  rw [← hnames, summaryOf, planned, List.map_map, List.map_map]
  rfl

/-- The command succeeds on the tree, whatever is drawn. -/
theorem exists_runs_keyedTree (draws : Draws) : ∃ summary tree',
    Runs (generate FileTree.access draws {} keyedArgs) keyedTree summary tree' := by
  have hmade : keyedTree.makeDirs "." = (.ok (), keyedTree) :=
    FileTree.makeDirs_again (t := keyedTree) rfl (.refl _)
  obtain ⟨summary, tree', hrun, -⟩ := @exists_runs_of_makeDirs keyedArgs _ rfl hmade
    (by decide) (by decide +kernel) draws
  exact ⟨summary, tree', hrun⟩

/-- Two runs with different draws: the second one begins with what the first one has saved. -/
theorem generate_repeats_keyedTree : ∃ summary tree' summary' tree'',
    Runs (generate FileTree.access (Draw.expand [0]) {} keyedArgs) keyedTree summary tree' ∧
      Runs (generate FileTree.access (Draw.expand [1]) {}
        (keyedArgs.again "saved.json" none)) tree' summary' tree'' ∧
        Repeats "saved.json" summary summary' tree' tree'' := by
  obtain ⟨summary, tree', hrun⟩ := exists_runs_keyedTree (Draw.expand [0])
  have hmatch : Mesh.keyedMesh.KeptPairsMatch summary.rekeyed := fun host hhost _ _ k p hk hp =>
    Mesh.matches_keyedMesh host hhost k p hk hp
  obtain ⟨summary', tree'', hrun', hrepeats⟩ := generate_repeats hrun rfl read_keyedTree
    Mesh.keyedMesh.ofJson_pretty hmatch (.refl tree') rfl (Draw.expand [1]) (.inl rfl)
  exact ⟨summary, tree', summary', tree'', hrun, hrun', hrepeats⟩

end TunnelMesh.Command
