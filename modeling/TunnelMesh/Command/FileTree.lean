import TunnelMesh.Error
import TunnelMesh.Text.Octets

/-!
# File trees

A file system without links: a set of directories and a map from paths to the contents of files,
with the three operations that the commands need. An operation looks at a path from its first
component to its last and fails with the first thing that stands in its way. `FileAccess` is the
interface of these operations; a file tree is one implementation of it, and the disk is another.
-/

namespace TunnelMesh

/-- Reading and writing files. A directory is made together with the directories it lies in. -/
structure FileAccess (m : Type → Type) where
  read : String → ExceptT FileError m (List UInt8)
  makeDirs : String → ExceptT FileError m Unit
  write : String → List UInt8 → ExceptT FileError m Unit

/-! ## Paths -/

namespace Path

/-- The components of a path; slashes next to each other count as one. -/
def components (path : String) : List String :=
  ((path.toList.splitOn '/').filter (· ≠ [])).map String.ofList

/-- The path begins at the root. -/
def isAbsolute (path : String) : Bool :=
  path.toList.head? == some '/'

/-- The path ends with a slash. -/
def endsWithSlash (path : String) : Bool :=
  path.toList.getLast? == some '/'

/-- The path of a name inside a directory. -/
def join (dir name : String) : String :=
  if dir = "" then name
  else if endsWithSlash dir then dir ++ name
  else dir ++ "/" ++ name

/-- The components of a path without those that say the same directory again: `.` counts only
where the path begins with it. -/
def essential (path : String) : List String :=
  match components path with
  | [] => []
  | c :: cs =>
    let rest := cs.filter (· ≠ ".")
    if c = "." && isAbsolute path then rest else c :: rest

end Path

/-! ## Trees -/

/-- Directories and files, by their components from the root, and the directory in which relative
paths begin. The root is a directory in every tree. -/
structure FileTree where
  workDir : List String
  dirs : List (List String)
  files : List (List String × List UInt8)
  deriving DecidableEq, Repr

/-- Where a path leads. -/
inductive Place where
  /-- A directory. -/
  | dir (path : List String)
  /-- A file. -/
  | file (path : List String) (content : List UInt8)
  /-- A name that nothing in its directory has. -/
  | free (path : List String)
  deriving DecidableEq, Repr

namespace FileTree

/-- The path is a directory of the tree. -/
def isDir (t : FileTree) (p : List String) : Bool :=
  p.isEmpty || t.dirs.contains p

/-- The content of a file. -/
def content? (t : FileTree) (p : List String) : Option (List UInt8) :=
  t.files.lookup p

/-- Where components lead from a directory. Only the last of them may be a file or a name that is
still free. -/
def walk (t : FileTree) (dir : List String) : List String → Except FileError Place
  | [] => .ok (.dir dir)
  | c :: cs =>
    if c = "." then t.walk dir cs
    else if c = ".." then t.walk dir.dropLast cs
    else if 255 < c.utf8ByteSize then .error .nameTooLong
    else
      let p := dir ++ [c]
      if t.isDir p then t.walk p cs
      else
        match t.content? p, cs with
        | some content, [] => .ok (.file p content)
        | some _, _ :: _ => .error .notDirectory
        | none, [] => .ok (.free p)
        | none, _ :: _ => .error .notFound

/-- Where components of a path lead, if the path is one that the system takes. -/
def follow (t : FileTree) (path : String) (cs : List String) : Except FileError Place :=
  if path.toList.contains '\x00' then .error .nulByte
  else if path = "" then .error .notFound
  else if 4096 ≤ path.utf8ByteSize then .error .nameTooLong
  else t.walk (if Path.isAbsolute path then [] else t.workDir) cs

/-- Where a path leads. -/
def locate (t : FileTree) (path : String) : Except FileError Place :=
  t.follow path (Path.components path)

/-- Where a path leads without its last component. -/
def locateParent (t : FileTree) (path : String) : Except FileError Place :=
  t.follow path (Path.components path).dropLast

/-- The path leads to a directory. -/
def leadsToDir (t : FileTree) (path : String) : Bool :=
  match t.locate path with
  | .ok (.dir _) => true
  | _ => false

/-! ## Operations -/

/-- The content of the file at a path. -/
def read (t : FileTree) (path : String) : Except FileError (List UInt8) := do
  match ← t.locate path with
  | .dir _ => throw .isDirectory
  | .file _ content => if Path.endsWithSlash path then throw .notDirectory else return content
  | .free _ => throw .notFound

/-- The tree with a new directory at a path. -/
def makeDir (t : FileTree) (path : String) : Except FileError FileTree := do
  match ← t.locate path with
  | .free p => return { t with dirs := p :: t.dirs }
  | .dir _ | .file _ _ => throw .exists

/-- The tree with a file at a path. A slash at the end says that a directory is meant, and then
nobody looks for the last component. -/
def write (t : FileTree) (path : String) (content : List UInt8) : Except FileError FileTree := do
  if Path.endsWithSlash path then
    match ← t.locateParent path with
    | .dir _ => throw .isDirectory
    | .file _ _ => throw .notDirectory
    | .free _ => throw .notFound
  else
    match ← t.locate path with
    | .dir _ => throw .isDirectory
    | .file p _ | .free p => return { t with files := (p, content) :: t.files.filter (·.1 ≠ p) }

/-- Makes a directory at a path unless one is there. What the second component says is what stands
in the way; the tree is as far as the directories could be made. -/
def ensureDir (t : FileTree) (path : String) : Except FileError Unit × FileTree :=
  match t.makeDir path with
  | .ok t => (.ok (), t)
  | .error e => (if t.leadsToDir path then .ok () else .error e, t)

/-- The path of components, given last first. -/
def pathOf (absolute : Bool) (reversed : List String) : String :=
  (if absolute then "/" else "") ++ "/".intercalate reversed.reverse

/-- Makes the directory of a path whose essential components are given last first, after those it
lies in where one of them is missing. -/
def makeDirsFrom (absolute : Bool) (path : String) :
    List String → FileTree → Except FileError Unit × FileTree
  | reversed, t =>
    match t.ensureDir path, reversed with
    | (.error .notFound, t), _ :: parent =>
      let above :=
        if parent.isEmpty && !absolute then (.ok (), t)
        else makeDirsFrom absolute (pathOf absolute parent) parent t
      match above with
      | (.ok _, t) => t.ensureDir path
      | (.error e, t) => (.error e, t)
    | r, _ => r

/-- Makes the directory of a path and the directories it lies in. -/
def makeDirs (t : FileTree) (path : String) : Except FileError Unit × FileTree :=
  if path = "" then (.ok (), t)
  else makeDirsFrom (Path.isAbsolute path) path (Path.essential path).reverse t

/-- The operations on a tree that is carried along. -/
def access : FileAccess (StateM FileTree) where
  read path := ExceptT.mk fun t => (t.read path, t)
  makeDirs path := ExceptT.mk fun t => t.makeDirs path
  write path content := ExceptT.mk fun t =>
    match t.write path content with
    | .ok t => (.ok (), t)
    | .error e => (.error e, t)

end FileTree

end TunnelMesh
