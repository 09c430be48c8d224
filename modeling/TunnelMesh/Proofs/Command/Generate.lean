import Mathlib
import TunnelMesh.Command.Run
import TunnelMesh.Proofs.Command.FileTree

/-!
# Generating on a file tree

The commands run step by step, each step on the files that the one before has left (`Runs`). So
`generate` succeeds just when the topology is read and compiled, the names of the hosts can be those
of files, the directory can be made and every path names a file, and then it has done one list of
writes and reports the mesh (`runs_generate`).
-/

namespace TunnelMesh.Command

/-! ## Steps on a tree -/

section

variable {ε ε' α β : Type} {t t' : FileTree}

/-- What comes out of steps on a tree, and what becomes of the tree. -/
def outcome (x : ExceptT ε (StateM FileTree) α) (t : FileTree) : Except ε α × FileTree :=
  x.run.run t

/-- Steps on a tree end with a result and leave a tree behind. -/
def Runs (x : ExceptT ε (StateM FileTree) α) (t : FileTree) (a : α) (t' : FileTree) : Prop :=
  outcome x t = (.ok a, t')

/-- A step that does nothing gives its result and leaves the tree as it is. -/
theorem runs_pure {a b : α} :
    Runs (pure a : ExceptT ε (StateM FileTree) α) t b t' ↔ b = a ∧ t' = t := by
  have houtcome : outcome (pure a : ExceptT ε (StateM FileTree) α) t = (.ok a, t) := rfl
  rw [Runs, houtcome, Prod.mk.injEq, Except.ok.injEq, eq_comm, @eq_comm _ t]

/-- The second of two steps begins with what the first one has left, if that has not failed. -/
theorem outcome_bind (x : ExceptT ε (StateM FileTree) α) (f : α → ExceptT ε (StateM FileTree) β)
    (t : FileTree) : outcome (x >>= f) t = match outcome x t with
      | (.ok a, t₁) => outcome (f a) t₁
      | (.error e, t₁) => (.error e, t₁) := by
  have hcases : outcome (x >>= f) t = (match x.run.run t with
      | (.ok a, t₁) => (f a).run.run t₁
      | (.error e, t₁) => (.error e, t₁) : Except ε β × FileTree) := by
    rw [outcome, ExceptT.run_bind, StateT.run_bind]
    rcases x.run.run t with ⟨(e | a), t₁⟩ <;> rfl
  exact hcases

/-- Of two steps, the second one runs on the tree that the first one leaves. -/
theorem runs_bind {x : ExceptT ε (StateM FileTree) α} {f : α → ExceptT ε (StateM FileTree) β}
    {b : β} : Runs (x >>= f) t b t' ↔ ∃ a t₁, Runs x t a t₁ ∧ Runs (f a) t₁ b t' := by
  simp only [Runs, outcome_bind]
  rcases outcome x t with ⟨(e | a), t₁⟩
  · simp
  · simp

/-- Errors may be renamed. -/
theorem outcome_adapt (x : ExceptT ε (StateM FileTree) α) (f : ε → ε') (t : FileTree) :
    outcome (x.adapt f) t = ((outcome x t).1.mapError f, (outcome x t).2) :=
  rfl

/-- Wording errors otherwise does not change the runs that succeed. -/
theorem runs_adapt {x : ExceptT ε (StateM FileTree) α} {f : ε → ε'} {a : α} :
    Runs (x.adapt f) t a t' ↔ Runs x t a t' := by
  rw [Runs, Runs, outcome_adapt]
  rcases outcome x t with ⟨(e | a), t₁⟩
  · simp [Except.mapError]
  · simp [Except.mapError]

/-- A step that looks at no file. -/
theorem runs_lift {e : Except ε α} {a : α} :
    Runs (liftM e : ExceptT ε (StateM FileTree) α) t a t' ↔ e = .ok a ∧ t' = t := by
  have houtcome : outcome (liftM e : ExceptT ε (StateM FileTree) α) t = (e, t) := rfl
  rw [Runs, houtcome, Prod.mk.injEq, @eq_comm _ t]

end

variable {t t' : FileTree} {path : String} {content : List UInt8}

theorem runs_read : Runs (FileTree.access.read path) t content t' ↔
    t.read path = .ok content ∧ t' = t := by
  have houtcome : outcome (FileTree.access.read path) t = (t.read path, t) := rfl
  rw [Runs, houtcome, Prod.mk.injEq, @eq_comm _ t]

/-- A file that cannot be written leaves the tree as it is. -/
theorem outcome_write (t : FileTree) (path : String) (content : List UInt8) :
    outcome (FileTree.access.write path content) t = match t.write path content with
      | .ok t => (.ok (), t)
      | .error e => (.error e, t) :=
  rfl

theorem runs_write {u : Unit} : Runs (FileTree.access.write path content) t u t' ↔
    t.write path content = .ok t' := by
  rw [Runs, outcome_write]
  cases t.write path content <;> simp

/-- Directories are made just when the tree takes them. -/
theorem runs_makeDirs {u : Unit} : Runs (FileTree.access.makeDirs path) t u t' ↔
    t.makeDirs path = (.ok (), t') :=
  Iff.rfl

/-! ## Texts and documents -/

/-- A file whose bytes are those of a text is read as that text. -/
theorem textOf_eq_ok {bs : List UInt8} {text : String} :
    textOf bs = .ok text ↔ bs = Text.utf8 text := by
  have hbytes : ∀ s : String, (⟨(Text.utf8 s).toArray⟩ : ByteArray) = s.toByteArray := fun s => by
    rw [← String.utf8Encode_toList]
    exact ByteArray.ext List.data_toByteArray.symm
  rw [textOf, String.fromUTF8?]
  constructor
  · intro h
    split_ifs at h with hvalid
    cases h
    have hvalidated := hbytes (String.fromUTF8 ⟨bs.toArray⟩ hvalid)
    exact (congrArg (fun b : ByteArray => b.data.toList) hvalidated).symm
  · rintro rfl
    have hvalid : ByteArray.IsValidUTF8 ⟨(Text.utf8 text).toArray⟩ := by
      rw [hbytes]
      exact text.isValidUTF8
    rw [dif_pos hvalid]
    exact congrArg Except.ok (String.toByteArray_inj.1 (hbytes text))

/-- A text is read from a file that has its bytes. -/
theorem runs_readText {text : String} : Runs (readText FileTree.access path) t text t' ↔
    t.read path = .ok (Text.utf8 text) ∧ t' = t := by
  rw [readText, runs_bind]
  simp only [runs_read, runs_lift, textOf_eq_ok]
  constructor
  · rintro ⟨bs, t₁, ⟨hread, rfl⟩, rfl, rfl⟩
    exact ⟨hread, rfl⟩
  · rintro ⟨hread, rfl⟩
    exact ⟨_, _, ⟨hread, rfl⟩, rfl, rfl⟩

/-- A document is read where a file has its text. -/
theorem runs_readDocument {α : Type} {ofJson : String → Except MeshError α} {a : α} :
    Runs (readDocument FileTree.access ofJson path) t a t' ↔
      ∃ text, t.read path = .ok (Text.utf8 text) ∧ ofJson text = .ok a ∧ t' = t := by
  rw [readDocument, runs_bind]
  simp only [runs_adapt, runs_readText, runs_lift]
  constructor
  · rintro ⟨text, t₁, ⟨hread, rfl⟩, hjson, rfl⟩
    exact ⟨text, hread, hjson, rfl⟩
  · rintro ⟨text, hread, hjson, rfl⟩
    exact ⟨text, _, ⟨hread, rfl⟩, hjson, rfl⟩

theorem mapError_eq_ok {ε ε' α : Type} {x : Except ε α} {f : ε → ε'} {a : α} :
    x.mapError f = .ok a ↔ x = .ok a := by
  cases x <;> simp [Except.mapError]

/-- A mesh is loaded where the topology of a document is compiled. -/
theorem runs_loadMesh {d : Defaults} {draws : Draws} {m : Mesh} :
    Runs (loadMesh FileTree.access path d draws) t m t' ↔
      ∃ text topology, t.read path = .ok (Text.utf8 text) ∧ Topology.ofJson text = .ok topology ∧
        Mesh.compile topology d draws = .ok m ∧ t' = t := by
  rw [loadMesh, runs_bind]
  simp only [runs_adapt, runs_readDocument, runs_lift, mapError_eq_ok]
  constructor
  · rintro ⟨topology, t₁, ⟨text, hread, hjson, rfl⟩, hcompile, rfl⟩
    exact ⟨text, topology, hread, hjson, hcompile, rfl⟩
  · rintro ⟨text, topology, hread, hjson, hcompile, rfl⟩
    exact ⟨topology, _, ⟨text, hread, hjson, rfl⟩, hcompile, rfl⟩

/-! ## Generating -/

/-- A name that may be that of a file in any directory. -/
def IsFileName (hostname : String) : Prop :=
  ¬ (hostname = "." ∨ hostname = ".." ∨ hostname.toList.contains '/' ∨
    hostname.toList.contains '\\')

/-- A host has a file just when its name may be that of a file. -/
theorem fileName_eq_ok {hostname name : String} :
    fileName hostname = .ok name ↔ IsFileName hostname ∧ name = hostname ++ ".conf" := by
  rw [fileName, IsFileName]
  split_ifs with hrefused
  · exact ⟨nofun, fun h => absurd hrefused h.1⟩
  · exact ⟨fun h => ⟨hrefused, (Except.ok.inj h).symm⟩, fun h => congrArg Except.ok h.2.symm⟩

/-- The configuration files in a directory, each with its path and its host's name. -/
def planned (output : String) (configs : List (String × Config)) : List (WrittenFile × String) :=
  configs.map fun c => (⟨c.1, Path.join output (c.1 ++ ".conf")⟩, c.2.ini)

/-- Files are planned where all names may be those of files. -/
theorem plan_eq_ok {output : String} {configs : List (String × Config)}
    {files : List (WrittenFile × String)} : plan output configs = .ok files ↔
      (∀ c ∈ configs, IsFileName c.1) ∧ files = planned output configs := by
  induction configs generalizing files with
  | nil => simp [plan, planned, eq_comm]
  | cons c configs ih =>
    rw [plan, List.forall_mem_cons]
    simp only [Except.bind_eq_ok, fileName_eq_ok, ih]
    constructor
    · rintro ⟨name, ⟨hname, rfl⟩, rest, ⟨hrest, rfl⟩, hfiles⟩
      cases hfiles
      exact ⟨⟨hname, hrest⟩, rfl⟩
    · rintro ⟨⟨hname, hrest⟩, rfl⟩
      exact ⟨_, ⟨hname, rfl⟩, _, ⟨hrest, rfl⟩, rfl⟩

/-- What is written to a file. -/
def writeOf (file : WrittenFile × String) : String × List UInt8 :=
  (file.1.path, Text.utf8 file.2)

/-- Writing the files of a run is writing their places and contents in order. -/
theorem runs_writeFiles {files : List (WrittenFile × String)} {u : Unit} :
    Runs (writeFiles FileTree.access files) t u t' ↔ t.writeAll (files.map writeOf) = .ok t' := by
  induction files generalizing t with
  | nil =>
    rw [writeFiles, runs_pure, List.map_nil, FileTree.writeAll]
    simp [eq_comm]
  | cons file files ih =>
    rw [writeFiles, runs_bind, List.map_cons, FileTree.writeAll, Except.bind_eq_ok]
    simp only [writeText, runs_adapt, runs_write, ih, exists_const]
    rfl

/-- The document of the topology that is saved of a mesh. -/
def savedDocument (m : Mesh) : String :=
  m.topology.pretty ++ "\n"

/-- All that `generate` writes for a mesh: the configurations, and then the topology where it is to
be saved. -/
def writesOf (m : Mesh) (args : GenerateArgs) : List (String × List UInt8) :=
  (planned args.output m.configs).map writeOf ++
    args.resolved.toList.map fun path => (path, Text.utf8 (savedDocument m))

/-- What `generate` reports of a mesh. -/
def summaryOf (m : Mesh) (args : GenerateArgs) : Summary where
  network := m.topology.name
  subnet := m.subnet.text
  files := (planned args.output m.configs).map Prod.fst
  rekeyed := m.rekeyed
  resolved := args.resolved

/-- The last steps of `generate`. -/
theorem runs_saving {m : Mesh} {args : GenerateArgs} {s : Summary} : Runs (do
    if let some path := args.resolved then
      writeText FileTree.access path (savedDocument m)
    return summaryOf m args : ExceptT CommandError (StateM FileTree) Summary) t s t' ↔
      t.writeAll (args.resolved.toList.map fun path => (path, Text.utf8 (savedDocument m))) =
        .ok t' ∧ s = summaryOf m args := by
  cases args.resolved with
  | none =>
    simp only [runs_pure, Option.toList_none, List.map_nil, FileTree.writeAll, Except.ok.injEq]
    rw [and_comm, eq_comm]
  | some path =>
    simp only [runs_bind, writeText, runs_adapt, runs_write, runs_pure, Option.toList_some,
      List.map_singleton, FileTree.writeAll, Except.bind_eq_ok, exists_const]
    constructor
    · rintro ⟨t₁, hwrite, rfl, rfl⟩
      exact ⟨⟨_, hwrite, rfl⟩, rfl⟩
    · rintro ⟨⟨t₁, hwrite, hlast⟩, rfl⟩
      cases hlast
      exact ⟨_, hwrite, rfl, rfl⟩

/-- When `generate` succeeds, and what it does then. -/
theorem runs_generate {d : Defaults} {draws : Draws} {args : GenerateArgs} {s : Summary} :
    Runs (generate FileTree.access draws d args) t s t' ↔
      ∃ text topology m t₁, t.read args.topology = .ok (Text.utf8 text) ∧
        Topology.ofJson text = .ok topology ∧ Mesh.compile topology d draws = .ok m ∧
          (∀ c ∈ m.configs, IsFileName c.1) ∧ t.makeDirs args.output = (.ok (), t₁) ∧
            t₁.writeAll (writesOf m args) = .ok t' ∧ s = summaryOf m args := by
  rw [generate]
  simp only [runs_bind, runs_loadMesh, runs_lift, plan_eq_ok, runs_adapt, runs_makeDirs,
    runs_writeFiles, writesOf, FileTree.writeAll_append_eq_ok]
  constructor
  · rintro ⟨m, _, ⟨text, topology, hread, hjson, hcompile, rfl⟩, files, _, ⟨⟨hnames, rfl⟩, rfl⟩,
      -, t₁, hdirs, -, t₂, hwrite, hrest⟩
    obtain ⟨hsave, rfl⟩ := runs_saving.1 hrest
    exact ⟨text, topology, m, t₁, hread, hjson, hcompile, hnames, hdirs, ⟨t₂, hwrite, hsave⟩, rfl⟩
  · rintro ⟨text, topology, m, t₁, hread, hjson, hcompile, hnames, hdirs, ⟨t₂, hwrite, hsave⟩, rfl⟩
    exact ⟨m, _, ⟨text, topology, hread, hjson, hcompile, rfl⟩, _, _, ⟨⟨hnames, rfl⟩, rfl⟩, (), t₁,
      hdirs, (), t₂, hwrite, runs_saving.2 ⟨hsave, rfl⟩⟩

end TunnelMesh.Command
