import Mathlib
import TunnelMesh.Proofs.Command.Path
import TunnelMesh.Proofs.Command.SavedTopology
import TunnelMesh.Proofs.Command.Views

/-!
# What generating writes

All that `generate` may refuse comes before the first directory is made: the topology is only read
(`onlyReads_loadMesh`), and from then on nothing fails but the files themselves
(`failsByFile_writeFiles`). So a refused run leaves every tree as it is (`refuses_generate`). A run
that succeeds writes the file of each host into the output directory itself, under the host's name,
and whatever else it was asked for, and changes no other file (`generate_writesAllOrNothing`).
-/

namespace TunnelMesh.Command

/-! ## Refusals -/

section

variable {ε ε' α β : Type} {t t' : FileTree}

/-- Steps fail at the first of them that fails. -/
theorem outcome_bind_eq_error {x : ExceptT ε (StateM FileTree) α}
    {f : α → ExceptT ε (StateM FileTree) β} {e : ε} : outcome (x >>= f) t = (.error e, t') ↔
      outcome x t = (.error e, t') ∨ ∃ a t₁, Runs x t a t₁ ∧ outcome (f a) t₁ = (.error e, t') := by
  simp only [Runs, outcome_bind]
  rcases outcome x t with ⟨(e' | a), t₁⟩
  · simp
  · simp

/-- Steps that leave every tree as it is. -/
def OnlyReads (x : ExceptT ε (StateM FileTree) α) : Prop :=
  ∀ t, (outcome x t).2 = t

theorem onlyReads_lift (e : Except ε α) :
    OnlyReads (liftM e : ExceptT ε (StateM FileTree) α) :=
  fun _ => rfl

theorem onlyReads_read (path : String) : OnlyReads (FileTree.access.read path) :=
  fun _ => rfl

theorem OnlyReads.adapt {x : ExceptT ε (StateM FileTree) α} (hx : OnlyReads x) (f : ε → ε') :
    OnlyReads (x.adapt f) :=
  hx

/-- Steps that only read do so one after the other. -/
theorem OnlyReads.bind {x : ExceptT ε (StateM FileTree) α} {f : α → ExceptT ε (StateM FileTree) β}
    (hx : OnlyReads x) (hf : ∀ a, OnlyReads (f a)) : OnlyReads (x >>= f) := by
  intro t
  have hfirst := hx t
  rw [outcome_bind]
  rcases houtcome : outcome x t with ⟨(e | a), t₁⟩
  · rw [houtcome] at hfirst
    exact hfirst
  · rw [houtcome] at hfirst
    exact (hf a t₁).trans hfirst

/-- Steps that fail with the error of a file, if they fail. -/
def FailsByFile (x : ExceptT CommandError (StateM FileTree) α) : Prop :=
  ∀ t e t', outcome x t = (.error e, t') → ∃ cause, e = .file cause

theorem failsByFile_pure (a : α) :
    FailsByFile (pure a : ExceptT CommandError (StateM FileTree) α) := by
  rintro t e t' ⟨⟩

theorem failsByFile_adapt (x : ExceptT FileError (StateM FileTree) α) :
    FailsByFile (x.adapt CommandError.file) := by
  intro t e t' h
  rw [outcome_adapt] at h
  rcases houtcome : outcome x t with ⟨(cause | a), t₁⟩
  · rw [houtcome] at h
    cases h
    exact ⟨cause, rfl⟩
  · rw [houtcome] at h
    cases h

/-- Steps that fail by their files only do so one after the other. -/
theorem FailsByFile.bind {x : ExceptT CommandError (StateM FileTree) α}
    {f : α → ExceptT CommandError (StateM FileTree) β} (hx : FailsByFile x)
    (hf : ∀ a, FailsByFile (f a)) : FailsByFile (x >>= f) := by
  intro t e t' h
  rcases outcome_bind_eq_error.1 h with h | ⟨a, t₁, -, h⟩
  · exact hx t e t' h
  · exact hf a t₁ e t' h

/-- Steps that leave every tree as it is if they fail, unless it is a file that fails. -/
def Refuses (x : ExceptT CommandError (StateM FileTree) α) : Prop :=
  ∀ t e t', outcome x t = (.error e, t') → (∀ cause, e ≠ .file cause) → t' = t

/-- Steps that fail by their files only have no other failure after which the tree could differ. -/
theorem FailsByFile.refuses {x : ExceptT CommandError (StateM FileTree) α} (hx : FailsByFile x) :
    Refuses x := by
  intro t e t' h hother
  obtain ⟨cause, rfl⟩ := hx t e t' h
  exact absurd rfl (hother cause)

/-- What is only read may come before all that can be refused. -/
theorem OnlyReads.refuses_bind {x : ExceptT CommandError (StateM FileTree) α}
    {f : α → ExceptT CommandError (StateM FileTree) β} (hx : OnlyReads x)
    (hf : ∀ a, Refuses (f a)) : Refuses (x >>= f) := by
  intro t e t' h hother
  rcases outcome_bind_eq_error.1 h with h | ⟨a, t₁, hrun, h⟩
  · have hread := hx t
    rw [h] at hread
    exact hread
  · have hread := hx t
    rw [hrun] at hread
    exact (hf a t₁ e t' h hother).trans hread

end

/-- Loading a mesh only reads. -/
theorem onlyReads_loadMesh (path : String) (d : Defaults) (draws : Draws) :
    OnlyReads (loadMesh FileTree.access path d draws) := by
  have htext : OnlyReads (readText FileTree.access path) :=
    (onlyReads_read path).bind fun bs => onlyReads_lift (textOf bs)
  have hdocument : OnlyReads (readDocument FileTree.access Topology.ofJson path) :=
    (htext.adapt MeshError.file).bind fun text => onlyReads_lift (Topology.ofJson text)
  exact (hdocument.adapt CommandError.mesh).bind fun t =>
    onlyReads_lift ((Mesh.compile t d draws).mapError CommandError.mesh)

/-- Writing files fails by the files only. -/
theorem failsByFile_writeFiles (files : List (WrittenFile × String)) :
    FailsByFile (writeFiles FileTree.access files) := by
  induction files with
  | nil => exact failsByFile_pure ()
  | cons file files ih => exact (failsByFile_adapt _).bind fun _ => ih

/-- What `generate` refuses, it refuses before anything is written. -/
theorem refuses_generate (draws : Draws) (d : Defaults) (args : GenerateArgs) :
    Refuses (generate FileTree.access draws d args) := by
  refine (onlyReads_loadMesh args.topology d draws).refuses_bind fun m => ?_
  refine (onlyReads_lift (plan args.output m.configs)).refuses_bind fun files => ?_
  refine FailsByFile.refuses ?_
  refine (failsByFile_adapt _).bind fun _ => ?_
  refine (failsByFile_writeFiles files).bind fun _ => ?_
  cases args.resolved with
  | none => exact failsByFile_pure _
  | some path => exact (failsByFile_adapt _).bind fun _ => failsByFile_pure _

/-! ## Successful runs -/

/-- The file in which the topology is saved is none of those of the configurations. -/
def SavedApart (args : GenerateArgs) (s : Summary) (tree : FileTree) : Prop :=
  ∀ path, args.resolved = some path → ∀ f ∈ s.files, ∀ p, tree.fileAt? path = some p →
    tree.fileAt? f.path ≠ some p

/-- What a run has written that generated the mesh `m` of the topology `t`. -/
structure Wrote (t : Topology) (m : Mesh) (args : GenerateArgs) (s : Summary)
    (tree tree' : FileTree) : Prop where
  /-- There is one file for each host in the order of the topology, named after the host. -/
  files_eq : s.files = t.hosts.map fun h =>
    ⟨Text.trim h.hostname, Path.join args.output (Text.trim h.hostname ++ ".conf")⟩
  paths_nodup : (s.files.map WrittenFile.path).Nodup
  /-- The files are entries of the output directory itself. -/
  entries : ∃ dir, tree'.dirAt? args.output = some dir ∧
    ∀ f ∈ s.files, tree'.fileAt? f.path = some (dir ++ [f.hostname ++ ".conf"])
  contents : ∀ f ∈ s.files, ∃ c, m.configFor f.hostname = some c ∧
    tree'.read f.path = .ok (Text.utf8 c.ini)
  saved : ∀ path, args.resolved = some path →
    tree'.read path = .ok (Text.utf8 (m.topology.pretty ++ "\n"))
  /-- A file to which nothing was to be written is as before. -/
  others : ∀ p, (∀ f ∈ s.files, tree'.fileAt? f.path ≠ some p) →
    (∀ path, args.resolved = some path → tree'.fileAt? path ≠ some p) →
      tree'.content? p = tree.content? p

/-- The file of a host is an entry of its directory. -/
theorem isEntry_of_isFileName {hostname : String} (h : IsFileName hostname) :
    Path.IsEntry (hostname ++ ".conf") := by
  have hlength : ∀ name : String, name.toList.length < 5 → hostname ++ ".conf" ≠ name := by
    rintro name hshort rfl
    simp at hshort
  refine ⟨hlength "" (by decide), hlength "." (by decide), hlength ".." (by decide), ?_⟩
  rw [String.toList_append, List.mem_append, not_or]
  exact ⟨fun hslash => h (.inr (.inr (.inl (List.contains_iff_mem.2 hslash)))), by decide⟩

section

variable {t : Topology} {d : Defaults} {draws : Draws} {m : Mesh} {args : GenerateArgs}
  {tree made tree' : FileTree}

/-- The path of the configuration of a host. -/
def configPath (args : GenerateArgs) (hostname : String) : String :=
  Path.join args.output (hostname ++ ".conf")

/-- What is written: the configuration of each host to its path, and the topology where it is to be
saved. -/
theorem mem_writesOf {w : String × List UInt8} : w ∈ writesOf m args ↔
    (∃ c ∈ m.configs, w = (configPath args c.1, Text.utf8 c.2.ini)) ∨
      ∃ path, args.resolved = some path ∧ w = (path, Text.utf8 (savedDocument m)) := by
  rw [writesOf, planned, List.map_map, List.mem_append, List.mem_map, List.mem_map]
  simp only [Option.mem_toList, eq_comm (a := w)]
  rfl

/-- The configurations are written to entries of the output directory. -/
theorem exists_entries (hnames : ∀ c ∈ m.configs, IsFileName c.1)
    (hmade : tree.makeDirs args.output = (.ok (), made))
    (hwrites : made.writeAll (writesOf m args) = .ok tree') :
    ∃ dir, made.dirAt? args.output = some dir ∧
      ∀ c ∈ m.configs, made.fileAt? (configPath args c.1) = some (dir ++ [c.1 ++ ".conf"]) := by
  obtain ⟨dir, hdir⟩ := FileTree.exists_dirAt?_of_makeDirs hmade
  refine ⟨dir, hdir, fun c hc => ?_⟩
  have hwrite : (configPath args c.1, Text.utf8 c.2.ini) ∈ writesOf m args :=
    mem_writesOf.2 (.inl ⟨c, hc, rfl⟩)
  obtain ⟨p, hp⟩ := FileTree.exists_writeAll_eq_ok.1 ⟨tree', hwrites⟩ _ hwrite
  rw [hp, FileTree.fileAt?_join (isEntry_of_isFileName (hnames c hc)) hdir hp]

/-- The configuration of a host is found where it was written. -/
theorem content?_config (h : Mesh.compile t d draws = .ok m)
    (hwrites : made.writeAll (writesOf m args) = .ok tree') {dir : List String}
    (hentries : ∀ c ∈ m.configs,
      made.fileAt? (configPath args c.1) = some (dir ++ [c.1 ++ ".conf"]))
    {c : String × Config} (hc : c ∈ m.configs)
    (hapart : ∀ path, args.resolved = some path →
      made.fileAt? path ≠ some (dir ++ [c.1 ++ ".conf"])) :
    tree'.content? (dir ++ [c.1 ++ ".conf"]) = some (Text.utf8 c.2.ini) := by
  have hwrite : (configPath args c.1, Text.utf8 c.2.ini) ∈ writesOf m args :=
    mem_writesOf.2 (.inl ⟨c, hc, rfl⟩)
  refine FileTree.content?_writeAll_of_forall hwrites hwrite (hentries c hc) fun w hw hplace => ?_
  rcases mem_writesOf.1 hw with ⟨c', hc', rfl⟩ | ⟨path, hpath, rfl⟩
  · -- configurations at one place have one name, and names differ
    have hsame : some (dir ++ [c'.1 ++ ".conf"]) = some (dir ++ [c.1 ++ ".conf"]) :=
      (hentries c' hc').symm.trans hplace
    simp only [Option.some.injEq, List.append_cancel_left_eq, List.cons.injEq, and_true] at hsame
    have hname : c'.1 = c.1 := by simpa using hsame
    have hfound := (Mesh.configFor_eq_some_iff h).2 (hname ▸ hc' : (c.1, c'.2) ∈ m.configs)
    rw [(Mesh.configFor_eq_some_iff h).2 hc, Option.some.injEq] at hfound
    rw [hfound]
  · exact absurd hplace (hapart path hpath)

/-- The paths of the configurations differ: different names are entries of their own. -/
theorem nodup_configPaths (h : Mesh.compile t d draws = .ok m) {dir : List String}
    (hentries : ∀ c ∈ m.configs,
      made.fileAt? (configPath args c.1) = some (dir ++ [c.1 ++ ".conf"])) :
    ((m.configs.map Prod.fst).map (configPath args)).Nodup := by
  have hviews := Mesh.viewsAgree_of_compile h
  have hnodup := hviews.hostnames_nodup
  rw [← hviews.map_fst_configs] at hnodup
  refine hnodup.map_on fun name hname name' hname' hsame => ?_
  obtain ⟨c, hc, rfl⟩ := List.mem_map.1 hname
  obtain ⟨c', hc', rfl⟩ := List.mem_map.1 hname'
  have hplaces := (hentries c hc).symm.trans ((congrArg made.fileAt? hsame).trans
    (hentries c' hc'))
  simpa using hplaces

/-- What is there once the directory is made and everything is written. -/
theorem wrote_of_writeAll (hcompile : Mesh.compile t d draws = .ok m)
    (hnames : ∀ c ∈ m.configs, IsFileName c.1) (hmade : tree.makeDirs args.output = (.ok (), made))
    (hwrites : made.writeAll (writesOf m args) = .ok tree')
    (hapart : SavedApart args (summaryOf m args) tree') :
    Wrote t m args (summaryOf m args) tree tree' := by
  obtain ⟨dir, hdir, hentries⟩ := exists_entries hnames hmade hwrites
  have hdirs := FileTree.sameDirs_of_writeAll hwrites
  have hplace : ∀ path, tree'.fileAt? path = made.fileAt? path := FileTree.fileAt?_congr hdirs
  have hfiles : (summaryOf m args).files = (m.configs.map Prod.fst).map fun name =>
      ⟨name, configPath args name⟩ := by
    rw [summaryOf, planned, List.map_map, List.map_map]
    rfl
  have hentry : ∀ f ∈ (summaryOf m args).files,
      tree'.fileAt? f.path = some (dir ++ [f.hostname ++ ".conf"]) := by
    rw [hfiles, List.forall_mem_map, List.forall_mem_map]
    intro c hc
    rw [hplace, hentries c hc]
  exact {
    files_eq := by
      rw [hfiles, Mesh.map_fst_configs hcompile, List.map_map]
      rfl
    paths_nodup := by
      rw [hfiles, List.map_map]
      exact nodup_configPaths hcompile hentries
    entries := ⟨dir, (FileTree.dirAt?_congr hdirs _).trans hdir, hentry⟩
    contents := by
      intro f hf
      have hplaced := hentry f hf
      have hseparate : ∀ path, args.resolved = some path →
          made.fileAt? path ≠ some (dir ++ [f.hostname ++ ".conf"]) := by
        intro path hpath hsame
        exact hapart path hpath f hf _ ((hplace path).trans hsame) hplaced
      rw [hfiles, List.map_map, List.mem_map] at hf
      obtain ⟨c, hc, rfl⟩ := hf
      exact ⟨c.2, (Mesh.configFor_eq_some_iff hcompile).2 hc, FileTree.read_eq_ok.2
        ⟨_, hplaced, content?_config hcompile hwrites hentries hc hseparate⟩⟩
    saved := fun path hpath => read_saved hpath hwrites
    others := by
      intro p hother hsaved
      have hdirsOnly := tree.addsDirs_makeDirs args.output
      rw [hmade] at hdirsOnly
      rw [← hdirsOnly.content?_eq p]
      refine FileTree.content?_writeAll_of_ne hwrites fun w hw => ?_
      rw [← hplace]
      rcases mem_writesOf.1 hw with ⟨c, hc, rfl⟩ | ⟨path, hpath, rfl⟩
      · refine hother ⟨c.1, configPath args c.1⟩ ?_
        rw [hfiles]
        exact List.mem_map_of_mem (List.mem_map_of_mem hc)
      · exact hsaved path hpath }

end

/-- Plain paths that begin alike and have different components are those of different files. -/
theorem savedApart_of_isPlain {args : GenerateArgs} {s : Summary}
    (h : ∀ path ∈ args.resolved, ∀ f ∈ s.files, Path.IsPlain path ∧ Path.IsPlain f.path ∧
      Path.isAbsolute path = Path.isAbsolute f.path ∧
        Path.components path ≠ Path.components f.path) (tree : FileTree) :
    SavedApart args s tree := by
  intro path hpath f hf p hp hp'
  obtain ⟨hplain, hplain', habsolute, hne⟩ := h path hpath f hf
  have hcomponents := (FileTree.fileAt?_of_isPlain hplain hp).symm.trans
    (FileTree.fileAt?_of_isPlain hplain' hp')
  rw [habsolute] at hcomponents
  exact hne (List.append_cancel_left hcomponents)

/-- A run that is refused has touched nothing, and one that succeeds has written the mesh. -/
theorem generate_writesAllOrNothing (tree : FileTree) (draws : Draws) (d : Defaults)
    (args : GenerateArgs) :
    (∀ e tree', outcome (generate FileTree.access draws d args) tree = (.error e, tree') →
      (∀ cause, e ≠ .file cause) → tree' = tree) ∧
    ∀ s tree', Runs (generate FileTree.access draws d args) tree s tree' →
      SavedApart args s tree' →
        ∃ text t m, tree.read args.topology = .ok (Text.utf8 text) ∧
          Topology.ofJson text = .ok t ∧ Mesh.compile t d draws = .ok m ∧
            Wrote t m args s tree tree' := by
  refine ⟨refuses_generate draws d args tree, fun s tree' hrun hapart => ?_⟩
  obtain ⟨text, t, m, made, hread, hjson, hcompile, hnames, hmade, hwrites, rfl⟩ :=
    runs_generate.1 hrun
  exact ⟨text, t, m, hread, hjson, hcompile,
    wrote_of_writeAll hcompile hnames hmade hwrites hapart⟩

/-- The configurations are to be written to a directory that is not there yet. -/
def freshArgs : GenerateArgs :=
  { keyedArgs with output := "out" }

/-- The tree of two hosts with a directory for their configurations. -/
def keyedTreeWithOut : FileTree :=
  { keyedTree with dirs := [["out"]] }

/-- The directory is made, and each host has its file there. With a topology that is missing nothing
is made. -/
theorem generate_writesAllOrNothing_keyedTree :
    (∃ s tree' text t m,
      Runs (generate FileTree.access (Draw.expand []) {} freshArgs) keyedTree s tree' ∧
        s.files = [⟨"a1", "out/a1.conf"⟩, ⟨"a2", "out/a2.conf"⟩] ∧
          Topology.ofJson text = .ok t ∧ Mesh.compile t {} (Draw.expand []) = .ok m ∧
            Wrote t m freshArgs s keyedTree tree') ∧
    ∃ tree', outcome (generate FileTree.access (Draw.expand []) {}
      { freshArgs with topology := "other.json" }) keyedTree =
        (.error (.mesh (.file .notFound)), tree') ∧ tree' = keyedTree := by
  have hmade : keyedTree.makeDirs "out" = (.ok (), keyedTreeWithOut) := rfl
  have hpaths : ∀ name ∈ ["a1", "a2"],
      (keyedTreeWithOut.fileAt? (Path.join "out" (name ++ ".conf"))).isSome = true := by
    decide
  have hsavedPath : ∀ path ∈ freshArgs.resolved, (keyedTreeWithOut.fileAt? path).isSome = true := by
    decide
  constructor
  · obtain ⟨s, tree', hrun, hfiles⟩ :=
      @exists_runs_of_makeDirs freshArgs _ rfl hmade hpaths hsavedPath (Draw.expand [])
    have hapart : SavedApart freshArgs s tree' := by
      refine savedApart_of_isPlain ?_ tree'
      rw [hfiles]
      decide
    obtain ⟨text, t, m, -, hjson, hcompile, hwrote⟩ :=
      (generate_writesAllOrNothing keyedTree _ _ _).2 s tree' hrun hapart
    exact ⟨s, tree', text, t, m, hrun, hfiles, hjson, hcompile, hwrote⟩
  · have hrefused : outcome (generate FileTree.access (Draw.expand []) {}
        { freshArgs with topology := "other.json" }) keyedTree =
          (.error (.mesh (.file .notFound)), keyedTree) := rfl
    have hother : ∀ cause, CommandError.mesh (.file .notFound) ≠ .file cause := by
      intro cause h
      cases h
    exact ⟨keyedTree, hrefused,
      (generate_writesAllOrNothing keyedTree _ _ _).1 _ _ hrefused hother⟩

end TunnelMesh.Command
