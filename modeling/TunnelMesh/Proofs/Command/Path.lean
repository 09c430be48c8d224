import Mathlib
import TunnelMesh.Proofs.Command.FileTree

/-!
# Names in directories

A name that an entry of a directory may have is a component by itself, so the path that joins it to
that of a directory has one component more (`Path.components_join`) and leads to the entry of that
name in the directory (`FileTree.fileAt?_join`). A path without `.` and `..` leads where its
components say (`FileTree.fileAt?_of_isPlain`).
-/

namespace TunnelMesh

namespace Path

/-! ## Components -/

/-- A name that an entry of a directory may have. -/
structure IsEntry (name : String) : Prop where
  ne_empty : name ≠ ""
  ne_dot : name ≠ "."
  ne_dots : name ≠ ".."
  slash_not_mem : '/' ∉ name.toList

/-- A path that says no other directory than its names say. -/
def IsPlain (path : String) : Prop :=
  ∀ c ∈ components path, c ≠ "." ∧ c ≠ ".."

instance (path : String) : Decidable (IsPlain path) :=
  inferInstanceAs (Decidable (∀ c ∈ components path, c ≠ "." ∧ c ≠ ".."))

variable {path dir name : String}

/-- A slash stands between components. -/
theorem components_of_toList {front back : List Char} (h : path.toList = front ++ '/' :: back) :
    components path = components (String.ofList front) ++ components (String.ofList back) := by
  rw [components, components, components, h, String.toList_ofList, String.toList_ofList,
    List.splitOn_append_cons_self, List.filter_append, List.map_append]

theorem components_empty : components "" = [] := rfl

theorem toList_ne_nil (h : name ≠ "") : name.toList ≠ [] := fun hnil =>
  h (String.toList_eq_nil_iff.1 hnil)

/-- The name of an entry is a path of one component. -/
theorem components_entry (h : IsEntry name) : components name = [name] := by
  rw [components, List.splitOn_eq_singleton h.slash_not_mem,
    List.filter_cons_of_pos (by simpa using toList_ne_nil h.ne_empty), List.filter_nil,
    List.map_singleton, String.ofList_toList]

/-- A path that ends with a slash, up to the slash. -/
theorem endsWithSlash_iff : endsWithSlash path = true ↔ ∃ front, path.toList = front ++ ['/'] := by
  rw [endsWithSlash, beq_iff_eq, List.getLast?_eq_some_iff]

/-- In a path that is joined, the name stands behind a slash, unless the directory has no path. -/
theorem exists_toList_join (h : dir ≠ "") : ∃ front, (join dir name).toList =
    front ++ '/' :: name.toList ∧ components (String.ofList front) = components dir ∧
      (dir.toList = front ∨ dir.toList = front ++ ['/']) := by
  rw [join, if_neg h]
  split_ifs with hslash
  · obtain ⟨front, hfront⟩ := endsWithSlash_iff.1 hslash
    refine ⟨front, by simp [hfront], ?_, .inr hfront⟩
    have hback : components (String.ofList []) = [] := components_empty
    rw [@components_of_toList dir front [] hfront, hback, List.append_nil]
  · exact ⟨dir.toList, by simp, by rw [String.ofList_toList], .inl rfl⟩

/-- An entry of a directory is one component further. -/
theorem components_join (h : IsEntry name) (dir : String) :
    components (join dir name) = components dir ++ [name] := by
  by_cases hdir : dir = ""
  · rw [join, if_pos hdir, components_entry h, hdir, components_empty, List.nil_append]
  · obtain ⟨front, hjoin, hfront, -⟩ := @exists_toList_join dir name hdir
    rw [components_of_toList hjoin, hfront, String.ofList_toList, components_entry h]

/-- A joined path begins where that of the directory begins. -/
theorem isAbsolute_join (hdir : dir ≠ "") (name : String) :
    isAbsolute (join dir name) = isAbsolute dir := by
  obtain ⟨front, hjoin, -, hfront | hfront⟩ := @exists_toList_join dir name hdir
  · have hne : front ≠ [] := hfront ▸ toList_ne_nil hdir
    rw [isAbsolute, isAbsolute, hjoin, hfront, List.head?_append_of_ne_nil _ hne]
  · rw [isAbsolute, isAbsolute, hjoin, hfront]
    cases front <;> rfl

/-- The name of an entry begins with no slash. -/
theorem not_isAbsolute_entry (h : IsEntry name) : isAbsolute name = false := by
  rw [isAbsolute, beq_eq_false_iff_ne]
  exact fun hhead => h.slash_not_mem (List.mem_of_head? hhead)

end Path

namespace FileTree

variable {t t' : FileTree} {path dir name : String} {base p q cs : List String}

/-! ## Entries of a directory -/

/-- Where a file may be there is no directory. -/
theorem dir_ne_placeAt (p q : List String) :
    (.ok (.dir p) : Except FileError Place) ≠ .ok (t.placeAt q) := by
  intro h
  have hspot := congrArg spot? h
  rw [spot?_placeAt] at hspot
  cases hspot

/-- Places are told by their paths. -/
theorem placeAt_inj (h : (.ok (t.placeAt p) : Except FileError Place) = .ok (t.placeAt q)) :
    p = q := by
  have hspot := congrArg spot? h
  rw [spot?_placeAt, spot?_placeAt] at hspot
  cases hspot
  rfl

/-- Components that follow those of a directory lead on from there. -/
theorem walk_append (h : t.walk base cs = .ok (.dir p)) (cs' : List String) :
    t.walk base (cs ++ cs') = t.walk p cs' := by
  induction cs generalizing base with
  | nil =>
    cases h
    rfl
  | cons c cs ih =>
    rw [walk_cons] at h
    rw [List.cons_append, walk_cons]
    split_ifs at h with hdot hup hlong hdir hlast
    · rw [if_pos hdot, ih h]
    · rw [if_neg hdot, if_pos hup, ih h]
    · rw [if_neg hdot, if_neg hup, if_neg hlong, if_pos hdir, ih h]
    · exact absurd h.symm (dir_ne_placeAt _ _)

/-- The directory that a path names. The empty path stands for the one in which relative paths
begin. -/
def dirAt? (t : FileTree) (path : String) : Option (List String) :=
  if path = "" then some t.workDir
  else
    match t.locate path with
    | .ok (.dir p) => some p
    | _ => none

/-- The directory of a path is the one that it leads to, and the working directory where the path is
empty. -/
theorem dirAt?_eq_some : t.dirAt? path = some p ↔
    if path = "" then t.workDir = p else t.locate path = .ok (.dir p) := by
  rw [dirAt?]
  split_ifs
  · rw [Option.some.injEq]
  · rcases t.locate path with _ | (_ | _ | _) <;> simp

theorem dirAt?_congr (h : t.SameDirs t') (path : String) : t'.dirAt? path = t.dirAt? path := by
  refine Option.ext fun p => ?_
  rw [dirAt?_eq_some, dirAt?_eq_some, h.workDir, ← spot?_eq_dir, ← spot?_eq_dir, locate_congr h]

/-- A directory that has been made is the one that its path names. -/
theorem exists_dirAt?_of_makeDirs (h : t.makeDirs path = (.ok (), t')) :
    ∃ p, t'.dirAt? path = some p := by
  rw [makeDirs] at h
  simp only [dirAt?_eq_some]
  split_ifs at h ⊢ with hempty
  · exact ⟨_, rfl⟩
  · exact leadsToDir_eq_true.1 (leadsToDir_of_makeDirsFrom h)

/-- The components of a path lead somewhere from the root or from the directory in which relative
paths begin. -/
theorem walk_of_locate {place : Place} (h : t.locate path = .ok place) :
    t.walk (if Path.isAbsolute path then [] else t.workDir) (Path.components path) =
      .ok place := by
  rw [locate, follow] at h
  split_ifs at h with _ _ _ habsolute
  · rwa [if_pos habsolute]
  · rwa [if_neg habsolute]

/-- The components of the path of a directory lead there. -/
theorem walk_of_dirAt? (h : t.dirAt? dir = some p) :
    t.walk (if Path.isAbsolute dir then [] else t.workDir) (Path.components dir) =
      .ok (.dir p) := by
  rw [dirAt?_eq_some] at h
  split_ifs at h with hempty
  · subst hempty h
    rfl
  · exact walk_of_locate h

/-- A file whose path is that of a directory with a name joined to it is the entry of that name. -/
theorem fileAt?_join (hname : Path.IsEntry name) (hdir : t.dirAt? dir = some p)
    (h : t.fileAt? (Path.join dir name) = some q) : q = p ++ [name] := by
  have hbase : (if Path.isAbsolute (Path.join dir name) then [] else t.workDir) =
      if Path.isAbsolute dir then [] else t.workDir := by
    by_cases hempty : dir = ""
    · rw [Path.join, if_pos hempty, Path.not_isAbsolute_entry hname, hempty]
      rfl
    · rw [Path.isAbsolute_join hempty]
  have hwalk := walk_of_locate (fileAt?_eq_some.1 h).2
  rw [hbase, Path.components_join hname, walk_append (walk_of_dirAt? hdir), walk_cons,
    if_neg hname.ne_dot, if_neg hname.ne_dots] at hwalk
  split_ifs at hwalk with hlong hisDir
  · exact absurd hwalk (dir_ne_placeAt _ _)
  · exact placeAt_inj hwalk.symm

/-! ## Plain paths -/

/-- Components that all say a name lead to the place that has these names. -/
theorem walk_of_names (hcs : ∀ c ∈ cs, c ≠ "." ∧ c ≠ "..")
    (h : t.walk base cs = .ok (t.placeAt p)) : p = base ++ cs := by
  induction cs generalizing base with
  | nil => exact absurd h (dir_ne_placeAt _ _)
  | cons c cs ih =>
    rw [List.forall_mem_cons] at hcs
    rw [walk_cons, if_neg hcs.1.1, if_neg hcs.1.2] at h
    split_ifs at h with hlong hdir hlast
    · rw [ih hcs.2 h, List.append_assoc, List.singleton_append]
    · rw [← placeAt_inj h, hlast]

/-- A file whose path is plain is where the components say. -/
theorem fileAt?_of_isPlain (hplain : Path.IsPlain path) (h : t.fileAt? path = some p) :
    p = (if Path.isAbsolute path then [] else t.workDir) ++ Path.components path :=
  walk_of_names hplain (walk_of_locate (fileAt?_eq_some.1 h).2)

end FileTree

end TunnelMesh
