import Mathlib
import TunnelMesh.Command.FileTree
import TunnelMesh.Proofs.Except

/-!
# Files by their places

Which file a path names depends on the directories of a tree and not on its files
(`FileTree.fileAt?_congr`). Reading and writing are then a lookup and an update at that place
(`FileTree.read_eq_ok`, `FileTree.write_eq_ok`), several files are written just when every path
names one (`FileTree.exists_writeAll_eq_ok`), and of the contents that are written to one place the
last one stays (`FileTree.content?_writeAll`). Directories that have been made are found as long as
none goes away (`FileTree.makeDirs_again`).
-/

namespace TunnelMesh

/-- Where a path leads, if it leads anywhere. A file counts as a name for one. -/
def spot? : Except FileError Place → Option Place
  | .ok (.dir p) => some (.dir p)
  | .ok (.file p _) => some (.free p)
  | .ok (.free p) => some (.free p)
  | .error _ => none

namespace FileTree

variable {t t' t₁ t₂ : FileTree} {path : String} {p q : List String} {content : List UInt8}

/-! ## Places -/

/-- The directories of two trees are the same, and so is the one in which relative paths begin. -/
structure SameDirs (t t' : FileTree) : Prop where
  workDir : t'.workDir = t.workDir
  dirs : t'.dirs = t.dirs

namespace SameDirs

theorem refl (t : FileTree) : t.SameDirs t :=
  ⟨rfl, rfl⟩

theorem trans (h : t.SameDirs t₁) (h₁ : t₁.SameDirs t₂) : t.SameDirs t₂ :=
  ⟨h₁.workDir.trans h.workDir, h₁.dirs.trans h.dirs⟩

theorem isDir_eq (h : t.SameDirs t') (p : List String) : t'.isDir p = t.isDir p := by
  rw [isDir, isDir, h.dirs]

end SameDirs

/-- A file, or the name for one where there is none. -/
def placeAt (t : FileTree) (p : List String) : Place :=
  match t.content? p with
  | some content => .file p content
  | none => .free p

@[simp] theorem spot?_placeAt (t : FileTree) (p : List String) :
    spot? (.ok (t.placeAt p)) = some (.free p) := by
  rw [placeAt]
  cases t.content? p <;> rfl

/-- What a file or its absence does to the components that follow. -/
def obstacleAt (t : FileTree) (p : List String) : FileError :=
  match t.content? p with
  | some _ => .notDirectory
  | none => .notFound

/-- One component: a directory is entered, and anything else may be the last one only. -/
theorem walk_cons (t : FileTree) (dir : List String) (c : String) (cs : List String) :
    t.walk dir (c :: cs) =
      if c = "." then t.walk dir cs
      else if c = ".." then t.walk dir.dropLast cs
      else if 255 < c.utf8ByteSize then .error .nameTooLong
      else if t.isDir (dir ++ [c]) then t.walk (dir ++ [c]) cs
      else if cs = [] then .ok (t.placeAt (dir ++ [c]))
      else .error (t.obstacleAt (dir ++ [c])) := by
  rw [walk, placeAt, obstacleAt]
  dsimp only
  cases cs with
  | nil => cases t.content? (dir ++ [c]) <;> simp
  | cons => cases t.content? (dir ++ [c]) <;> simp

/-- Components lead to the same place where the directories are the same, though in one tree a file
may be there and in the other none. -/
theorem walk_congr (h : t.SameDirs t') (dir cs : List String) :
    spot? (t'.walk dir cs) = spot? (t.walk dir cs) := by
  induction cs generalizing dir with
  | nil => rfl
  | cons c cs ih =>
    rw [walk_cons, walk_cons, h.isDir_eq]
    split_ifs with hdot hup hlong hdir hlast
    · exact ih dir
    · exact ih dir.dropLast
    · rfl
    · exact ih (dir ++ [c])
    · rw [spot?_placeAt, spot?_placeAt]
    · rfl

/-- A place that is not a directory is where its file is or would be. -/
theorem walk_of_spot? {dir cs : List String} (h : spot? (t.walk dir cs) = some (.free p)) :
    t.walk dir cs = .ok (t.placeAt p) := by
  induction cs generalizing dir with
  | nil => cases h
  | cons c cs ih =>
    rw [walk_cons] at h ⊢
    split_ifs at h ⊢ with hdot hup hlong hdir hlast
    · exact ih h
    · exact ih h
    · cases h
    · exact ih h
    · rw [spot?_placeAt] at h
      cases h
      rfl
    · cases h

/-- A name that is free leads to a directory once there is one at its place. -/
theorem walk_addDir {dir cs : List String} (h : t.walk dir cs = .ok (.free p)) :
    ({ t with dirs := p :: t.dirs } : FileTree).walk dir cs = .ok (.dir p) := by
  induction cs generalizing dir with
  | nil => cases h
  | cons c cs ih =>
    have hisDir : ∀ q, ({ t with dirs := p :: t.dirs } : FileTree).isDir q = true ↔
        t.isDir q = true ∨ q = p := fun q => by simp [isDir, or_comm, or_left_comm]
    rw [walk_cons] at h ⊢
    split_ifs at h with hdot hup hlong hdir hlast
    · rw [if_pos hdot]
      exact ih h
    · rw [if_neg hdot, if_pos hup]
      exact ih h
    · rw [if_neg hdot, if_neg hup, if_neg hlong, if_pos ((hisDir _).2 (.inl hdir))]
      exact ih h
    · -- the new directory is the last component
      obtain rfl : dir ++ [c] = p := by
        have hspot := congrArg spot? h
        rw [spot?_placeAt] at hspot
        cases hspot
        rfl
      rw [if_neg hdot, if_neg hup, if_neg hlong, if_pos ((hisDir _).2 (.inr rfl)), hlast]
      rfl

/-- Trees of the same directories agree on where a path leads, whatever files they have. -/
theorem locate_congr (h : t.SameDirs t') (path : String) :
    spot? (t'.locate path) = spot? (t.locate path) := by
  rw [locate, locate, follow, follow, h.workDir]
  split_ifs
  · rfl
  · rfl
  · rfl
  · exact walk_congr h _ _
  · exact walk_congr h _ _

theorem locate_of_spot? (h : spot? (t.locate path) = some (.free p)) :
    t.locate path = .ok (t.placeAt p) := by
  rw [locate, follow] at h ⊢
  split_ifs at h ⊢
  · cases h
  · cases h
  · cases h
  · exact walk_of_spot? h
  · exact walk_of_spot? h

/-! ## Files -/

/-- The place of the file that a path names, whether or not it is there yet. -/
def fileAt? (t : FileTree) (path : String) : Option (List String) :=
  if Path.endsWithSlash path then none
  else
    match spot? (t.locate path) with
    | some (.free p) => some p
    | _ => none

/-- A path names the place of a file just when it leads there and does not end in a slash. -/
theorem fileAt?_eq_some : t.fileAt? path = some p ↔
    Path.endsWithSlash path = false ∧ t.locate path = .ok (t.placeAt p) := by
  rw [fileAt?]
  constructor
  · intro h
    split at h
    · cases h
    · next hslash =>
      refine ⟨by simpa using hslash, ?_⟩
      split at h
      · next hspot =>
        cases h
        exact locate_of_spot? hspot
      · cases h
  · rintro ⟨hslash, hlocate⟩
    rw [if_neg (by simp [hslash]), hlocate, spot?_placeAt]

/-- Which file a path names depends on the directories only. -/
theorem fileAt?_congr (h : t.SameDirs t') (path : String) : t'.fileAt? path = t.fileAt? path := by
  rw [fileAt?, fileAt?, locate_congr h]

/-- The tree with a content at the place of a file. -/
def put (t : FileTree) (p : List String) (content : List UInt8) : FileTree :=
  { t with files := (p, content) :: t.files.filter (·.1 ≠ p) }

/-- A file that is put down adds no directory and takes none away. -/
theorem sameDirs_put (t : FileTree) (p : List String) (content : List UInt8) :
    t.SameDirs (t.put p content) :=
  ⟨rfl, rfl⟩

theorem lookup_filter_ne (hqp : q ≠ p) (files : List (List String × List UInt8)) :
    (files.filter (·.1 ≠ p)).lookup q = files.lookup q := by
  induction files with
  | nil => rfl
  | cons file files ih =>
    obtain ⟨r, other⟩ := file
    rw [List.filter_cons, List.lookup_cons]
    by_cases hr : r = p
    · rw [if_neg (by simpa using hr), ih, beq_eq_false_iff_ne.2 fun h => hqp (h.trans hr)]
    · rw [if_pos (by simpa using hr), List.lookup_cons, ih]

/-- A content that is put somewhere is found there, and nothing else changes. -/
theorem content?_put (t : FileTree) (p q : List String) (content : List UInt8) :
    (t.put p content).content? q = if q = p then some content else t.content? q := by
  rw [content?, put, List.lookup_cons]
  split_ifs with hqp
  · rw [beq_iff_eq.2 hqp]
  · rw [beq_eq_false_iff_ne.2 hqp, content?]
    exact lookup_filter_ne hqp t.files

/-- A file is read where it is. -/
theorem read_eq_ok : t.read path = .ok content ↔
    ∃ p, t.fileAt? path = some p ∧ t.content? p = some content := by
  simp only [fileAt?_eq_some]
  rw [read, Except.bind_eq_ok]
  constructor
  · rintro ⟨place, hplace, hread⟩
    cases place with
    | dir => cases hread
    | free => cases hread
    | file p found =>
      dsimp only at hread
      split_ifs at hread with hslash
      cases hread
      have hat : t.locate path = .ok (t.placeAt p) := locate_of_spot? (by rw [hplace]; rfl)
      refine ⟨p, ⟨by simpa using hslash, hat⟩, ?_⟩
      rw [hat, placeAt] at hplace
      split at hplace
      · next hfound => cases hplace; exact hfound
      · cases hplace
  · rintro ⟨p, ⟨hslash, hat⟩, hcontent⟩
    refine ⟨_, hat, ?_⟩
    rw [placeAt, hcontent]
    dsimp only
    rw [if_neg (by simp [hslash])]
    rfl

/-- A file is written where it is or would be. -/
theorem write_eq_ok : t.write path content = .ok t' ↔
    ∃ p, t.fileAt? path = some p ∧ t' = t.put p content := by
  simp only [fileAt?_eq_some]
  rw [write]
  constructor
  · intro h
    split_ifs at h with hslash
    · obtain ⟨place, -, hwrite⟩ := Except.bind_eq_ok.1 h
      cases place <;> cases hwrite
    · obtain ⟨place, hplace, hwrite⟩ := Except.bind_eq_ok.1 h
      cases place with
      | dir => cases hwrite
      | file p found =>
        cases hwrite
        exact ⟨p, ⟨by simpa using hslash, locate_of_spot? (by rw [hplace]; rfl)⟩, rfl⟩
      | free p =>
        cases hwrite
        exact ⟨p, ⟨by simpa using hslash, locate_of_spot? (by rw [hplace]; rfl)⟩, rfl⟩
  · rintro ⟨p, ⟨hslash, hat⟩, rfl⟩
    rw [if_neg (by simp [hslash]), Except.bind_eq_ok]
    refine ⟨_, hat, ?_⟩
    rw [placeAt]
    cases t.content? p <;> rfl

/-! ## Several files -/

/-- The tree with several files written, each given by its path, in order. -/
def writeAll (t : FileTree) : List (String × List UInt8) → Except FileError FileTree
  | [] => .ok t
  | (path, content) :: ws => do (← t.write path content).writeAll ws

/-- Writing several files begins with the first. -/
theorem writeAll_cons_eq_ok {ws : List (String × List UInt8)} :
    t.writeAll ((path, content) :: ws) = .ok t' ↔
      ∃ p, t.fileAt? path = some p ∧ (t.put p content).writeAll ws = .ok t' := by
  rw [writeAll, Except.bind_eq_ok]
  simp only [write_eq_ok]
  constructor
  · rintro ⟨_, ⟨p, hp, rfl⟩, hrest⟩
    exact ⟨p, hp, hrest⟩
  · rintro ⟨p, hp, hrest⟩
    exact ⟨_, ⟨p, hp, rfl⟩, hrest⟩

/-- Writing two lists of files is writing the one and then the other. -/
theorem writeAll_append_eq_ok {ws ws' : List (String × List UInt8)} :
    t.writeAll (ws ++ ws') = .ok t' ↔ ∃ t₁, t.writeAll ws = .ok t₁ ∧ t₁.writeAll ws' = .ok t' := by
  induction ws generalizing t with
  | nil => simp [writeAll]
  | cons w ws ih =>
    simp only [List.cons_append, writeAll, Except.bind_eq_ok, ih]
    constructor
    · rintro ⟨t₁, hw, t₂, hws, hrest⟩
      exact ⟨t₂, ⟨t₁, hw, hws⟩, hrest⟩
    · rintro ⟨t₂, ⟨t₁, hw, hws⟩, hrest⟩
      exact ⟨t₁, hw, t₂, hws, hrest⟩

/-- Writing files makes no directories. -/
theorem sameDirs_of_writeAll {ws : List (String × List UInt8)} (h : t.writeAll ws = .ok t') :
    t.SameDirs t' := by
  induction ws generalizing t with
  | nil =>
    cases h
    exact .refl _
  | cons w ws ih =>
    obtain ⟨p, -, hrest⟩ := writeAll_cons_eq_ok.1 h
    exact (t.sameDirs_put p w.2).trans (ih hrest)

/-- Files are written just when every path names one. -/
theorem exists_writeAll_eq_ok {ws : List (String × List UInt8)} :
    (∃ t', t.writeAll ws = .ok t') ↔ ∀ w ∈ ws, ∃ p, t.fileAt? w.1 = some p := by
  induction ws generalizing t with
  | nil => simp [writeAll]
  | cons w ws ih =>
    have hrest : ∀ p, (∃ t', (t.put p w.2).writeAll ws = .ok t') ↔
        ∀ w ∈ ws, ∃ q, t.fileAt? w.1 = some q := fun p => by
      simp only [ih, fileAt?_congr (t.sameDirs_put p w.2)]
    rw [List.forall_mem_cons]
    constructor
    · rintro ⟨t', h⟩
      obtain ⟨p, hp, h⟩ := writeAll_cons_eq_ok.1 h
      exact ⟨⟨p, hp⟩, (hrest p).1 ⟨t', h⟩⟩
    · rintro ⟨⟨p, hp⟩, hws⟩
      obtain ⟨t', h⟩ := (hrest p).2 hws
      exact ⟨t', writeAll_cons_eq_ok.2 ⟨p, hp, h⟩⟩

/-- What is written last to the place of a file. -/
def lastWritten? (t : FileTree) (ws : List (String × List UInt8)) (p : List String) :
    Option (List UInt8) :=
  (ws.reverse.find? fun w => t.fileAt? w.1 = some p).map Prod.snd

/-- Which file is written last at a place does not depend on the files that are there. -/
theorem lastWritten?_congr (h : t.SameDirs t') (ws : List (String × List UInt8))
    (p : List String) : t'.lastWritten? ws p = t.lastWritten? ws p := by
  simp only [lastWritten?, fileAt?_congr h]

/-- A file to which something is written has its last content, all others are as before. -/
theorem content?_writeAll {ws : List (String × List UInt8)} (h : t.writeAll ws = .ok t')
    (p : List String) : t'.content? p = (t.lastWritten? ws p).or (t.content? p) := by
  induction ws generalizing t with
  | nil =>
    cases h
    rfl
  | cons w ws ih =>
    obtain ⟨q, hq, hrest⟩ := writeAll_cons_eq_ok.1 h
    rw [ih hrest, lastWritten?_congr (t.sameDirs_put q w.2), content?_put]
    simp only [lastWritten?, List.reverse_cons, List.find?_append, Option.map_or]
    by_cases hqp : q = p
    · subst hqp
      simp [hq]
    · rw [if_neg (Ne.symm hqp), Option.or_assoc]
      simp [hq, hqp]

/-- Something is written last to every file to which anything is written. -/
theorem lastWritten?_isSome {ws : List (String × List UInt8)} {w : String × List UInt8}
    (hw : w ∈ ws) (hp : t.fileAt? w.1 = some p) : (t.lastWritten? ws p).isSome = true := by
  rw [lastWritten?, Option.isSome_map, List.find?_isSome]
  exact ⟨w, List.mem_reverse.2 hw, by simpa using hp⟩

/-- A file to which nothing is written is as before. -/
theorem content?_writeAll_of_ne {ws : List (String × List UInt8)} (h : t.writeAll ws = .ok t')
    (hne : ∀ w ∈ ws, t.fileAt? w.1 ≠ some p) : t'.content? p = t.content? p := by
  have hnone : t.lastWritten? ws p = none := by
    rw [lastWritten?, Option.map_eq_none_iff, List.find?_eq_none]
    intro w hw
    simpa using hne w (List.mem_reverse.1 hw)
  rw [content?_writeAll h, hnone, Option.none_or]

/-- A file has the content that everything has which is written to it. -/
theorem content?_writeAll_of_forall {ws : List (String × List UInt8)} {w : String × List UInt8}
    (h : t.writeAll ws = .ok t') (hw : w ∈ ws) (hp : t.fileAt? w.1 = some p)
    (hsame : ∀ w' ∈ ws, t.fileAt? w'.1 = some p → w'.2 = w.2) : t'.content? p = some w.2 := by
  obtain ⟨content, hlast⟩ := Option.isSome_iff_exists.1 (lastWritten?_isSome hw hp)
  obtain ⟨w', hfound, rfl⟩ := Option.map_eq_some_iff.1 hlast
  have hmem := List.mem_reverse.1 (List.mem_of_find?_eq_some hfound)
  rw [content?_writeAll h, hlast, Option.some_or,
    hsame w' hmem (by simpa using List.find?_some hfound)]

/-- The same writes leave the same content in a file, whatever was there before. -/
theorem exists_content?_writeAll {ws : List (String × List UInt8)} {w : String × List UInt8}
    (hdirs : t₁.SameDirs t₂) (hw : w ∈ ws) (hp : t₁.fileAt? w.1 = some p)
    (h₁ : t₁.writeAll ws = .ok t) (h₂ : t₂.writeAll ws = .ok t') :
    ∃ content, t.content? p = some content ∧ t'.content? p = some content := by
  obtain ⟨content, hlast⟩ := Option.isSome_iff_exists.1 (lastWritten?_isSome hw hp)
  refine ⟨content, ?_, ?_⟩
  · rw [content?_writeAll h₁, hlast, Option.some_or]
  · rw [content?_writeAll h₂, lastWritten?_congr hdirs, hlast, Option.some_or]

/-! ## Directories -/

/-- A tree with the same files and perhaps more directories. -/
structure AddsDirs (t t' : FileTree) : Prop where
  workDir : t'.workDir = t.workDir
  dirs : t.dirs <:+ t'.dirs
  files : t'.files = t.files

namespace AddsDirs

theorem refl (t : FileTree) : t.AddsDirs t :=
  ⟨rfl, List.suffix_rfl, rfl⟩

theorem trans (h : t.AddsDirs t₁) (h₁ : t₁.AddsDirs t₂) : t.AddsDirs t₂ :=
  ⟨h₁.workDir.trans h.workDir, h.dirs.trans h₁.dirs, h₁.files.trans h.files⟩

/-- The files that are there before stay as they are. -/
theorem content?_eq (h : t.AddsDirs t') (p : List String) : t'.content? p = t.content? p := by
  rw [content?, content?, h.files]

end AddsDirs

/-- To make a directory changes no file, whether or not it can be made. -/
theorem addsDirs_ensureDir (t : FileTree) (path : String) :
    t.AddsDirs (t.ensureDir path).2 := by
  rw [ensureDir]
  split
  · next hmake =>
    obtain ⟨place, -, hdone⟩ := Except.bind_eq_ok.1 hmake
    cases place with
    | dir => cases hdone
    | file => cases hdone
    | free p =>
      cases hdone
      exact ⟨rfl, List.suffix_cons _ _, rfl⟩
  · exact .refl t

/-- Making directories makes nothing else, whether or not it succeeds. -/
theorem addsDirs_makeDirsFrom (absolute : Bool) (path : String) (reversed : List String)
    (t : FileTree) : t.AddsDirs (makeDirsFrom absolute path reversed t).2 := by
  induction reversed generalizing path t with
  | nil =>
    unfold makeDirsFrom
    split
    · next hnil => cases hnil
    · exact t.addsDirs_ensureDir path
  | cons c parent ih =>
    have hfirst := t.addsDirs_ensureDir path
    unfold makeDirsFrom
    split
    · next t₁ _ _ hmissing hparent =>
      cases hparent
      rw [hmissing] at hfirst
      have habove : t₁.AddsDirs (if parent.isEmpty && !absolute then (.ok (), t₁)
          else makeDirsFrom absolute (pathOf absolute parent) parent t₁).2 := by
        split_ifs
        · exact .refl t₁
        · exact ih _ _
      dsimp only
      split
      · next t₂ hmade =>
        rw [hmade] at habove
        exact (hfirst.trans habove).trans (t₂.addsDirs_ensureDir path)
      · next hfailed =>
        rw [hfailed] at habove
        exact hfirst.trans habove
    · exact hfirst

/-- To make directories changes no file, whether or not all of them can be made. -/
theorem addsDirs_makeDirs (t : FileTree) (path : String) : t.AddsDirs (t.makeDirs path).2 := by
  rw [makeDirs]
  split_ifs
  · exact .refl t
  · exact t.addsDirs_makeDirsFrom _ _ _

/-- What is found at the end of a path is a directory just when the path leads to one. -/
theorem spot?_eq_dir {x : Except FileError Place} :
    spot? x = some (.dir p) ↔ x = .ok (.dir p) := by
  rcases x with _ | (_ | _ | _) <;> simp [spot?]

/-- A path is taken for a directory just when it leads to one. -/
theorem leadsToDir_eq_true : t.leadsToDir path = true ↔ ∃ p, t.locate path = .ok (.dir p) := by
  rw [leadsToDir]
  rcases t.locate path with _ | (_ | _ | _) <;> simp

/-- What leads to a directory depends on the directories only. -/
theorem leadsToDir_congr (h : t.SameDirs t') (path : String) :
    t'.leadsToDir path = t.leadsToDir path := by
  rw [Bool.eq_iff_iff, leadsToDir_eq_true, leadsToDir_eq_true]
  simp only [← spot?_eq_dir, locate_congr h]

/-- A directory that has been made is there. -/
theorem leadsToDir_of_ensureDir (h : t.ensureDir path = (.ok (), t')) :
    t'.leadsToDir path = true := by
  rw [ensureDir] at h
  split at h
  · next t'' hmake =>
    cases h
    obtain ⟨place, hplace, hdone⟩ := Except.bind_eq_ok.1 hmake
    cases place with
    | dir => cases hdone
    | file => cases hdone
    | free p =>
      cases hdone
      rw [leadsToDir, locate, follow]
      rw [locate, follow] at hplace
      split_ifs at hplace ⊢
      · rw [walk_addDir hplace]
      · rw [walk_addDir hplace]
  · split_ifs at h with hdir
    · cases h
      exact hdir
    · cases h

/-- A directory that is there is not made again. -/
theorem ensureDir_of_leadsToDir (h : t.leadsToDir path = true) :
    t.ensureDir path = (.ok (), t) := by
  have hmake : t.makeDir path = .error .exists := by
    obtain ⟨p, hp⟩ := leadsToDir_eq_true.1 h
    rw [makeDir, hp]
    rfl
  rw [ensureDir, hmake]
  dsimp only
  rw [if_pos h]

/-- The directory of a path is made last, after those it lies in. -/
theorem leadsToDir_of_makeDirsFrom {absolute : Bool} {reversed : List String}
    (h : makeDirsFrom absolute path reversed t = (.ok (), t')) : t'.leadsToDir path = true := by
  unfold makeDirsFrom at h
  split at h
  · dsimp only at h
    split at h
    · exact leadsToDir_of_ensureDir h
    · cases h
  · exact leadsToDir_of_ensureDir h

/-- Nothing is made where the directory is there. -/
theorem makeDirsFrom_of_leadsToDir (h : t.leadsToDir path = true) (absolute : Bool)
    (reversed : List String) : makeDirsFrom absolute path reversed t = (.ok (), t) := by
  unfold makeDirsFrom
  rw [ensureDir_of_leadsToDir h]

/-- Directories that have been made are found as long as none goes away. -/
theorem makeDirs_again (h : t.makeDirs path = (.ok (), t₁)) (hdirs : t₁.SameDirs t₂) :
    t₂.makeDirs path = (.ok (), t₂) := by
  rw [makeDirs] at h ⊢
  split_ifs at h ⊢ with hempty
  · rfl
  · refine makeDirsFrom_of_leadsToDir ?_ _ _
    rw [leadsToDir_congr hdirs, leadsToDir_of_makeDirsFrom h]

end FileTree

end TunnelMesh
