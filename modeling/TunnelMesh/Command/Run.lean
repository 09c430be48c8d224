import TunnelMesh.Command.FileTree
import TunnelMesh.Command.Report
import TunnelMesh.Mesh.Compile
import TunnelMesh.Topology.Document

/-!
# Commands

What the program does for each command, over any `FileAccess`. Everything that can be refused is
refused before the first file is written: a command that fails in the mesh or in the names of its
hosts has written nothing.
-/

namespace TunnelMesh.Command

/-- Why a command failed. -/
inductive CommandError where
  /-- The file of defaults could not be read. -/
  | defaultsFile (path : String) (e : MeshError)
  | mesh (e : MeshError)
  | hostNotFound (hostname : String)
  /-- A hostname would lead out of the directory of the configurations. -/
  | unsafeHostname (hostname : String)
  | invalidPrivateKey (e : MeshError)
  | file (e : FileError)
  deriving DecidableEq, Repr

namespace CommandError

/-- The wording of an error. -/
def message : CommandError → String
  | .defaultsFile path e =>
    "configuration error: cannot load defaults from " ++ path ++ ": " ++ e.message
  | .mesh e => "mesh error: " ++ e.message
  | .hostNotFound hostname => "host not found: " ++ hostname
  | .unsafeHostname hostname =>
    "invalid argument: hostname '" ++ hostname ++ "' cannot be used as a file name"
  | .invalidPrivateKey e => "invalid argument: private key: " ++ e.message
  | .file e => "IO error: " ++ e.message

/-- The wording of the error behind an error, if there is one. -/
def cause : CommandError → Option String
  | .mesh e => some e.message
  | .file e => some e.message
  | _ => none

end CommandError

/-! ## Files -/

/-- The text of a file's bytes. -/
def textOf (bs : List UInt8) : Except FileError String :=
  match String.fromUTF8? ⟨bs.toArray⟩ with
  | some s => .ok s
  | none => .error .notUtf8

variable {m : Type → Type} [Monad m]

/-- The text of the file at a path. -/
def readText (fs : FileAccess m) (path : String) : ExceptT FileError m String := do
  textOf (← fs.read path)

/-- The value of the document in the file at a path. -/
def readDocument {α : Type} (fs : FileAccess m) (ofJson : String → Except MeshError α)
    (path : String) : ExceptT MeshError m α := do
  ofJson (← (readText fs path).adapt MeshError.file)

/-- Writes a text to the file at a path. -/
def writeText (fs : FileAccess m) (path text : String) : ExceptT CommandError m Unit :=
  (fs.write path (Text.utf8 text)).adapt .file

/-! ## Defaults -/

/-- Defaults with the settings that options give. -/
def DefaultsOptions.override (o : DefaultsOptions) (d : Defaults) : Defaults :=
  { d with
    address := o.address.or d.address
    netmask := o.netmask.or d.netmask
    listenPort := o.listenPort.or d.listenPort
    dns := if o.dns.isEmpty then d.dns else o.dns
    mtu := o.mtu.or d.mtu
    table := o.table.or d.table
    persistentKeepalive := o.keepalive.or d.persistentKeepalive }

/-- The defaults that options give. -/
def loadDefaults (fs : FileAccess m) (o : DefaultsOptions) : ExceptT CommandError m Defaults := do
  match o.file with
  | none => return o.override {}
  | some path =>
    return o.override (← (readDocument fs Defaults.ofJson path).adapt (.defaultsFile path))

/-- The mesh of the topology in the file at a path. -/
def loadMesh (fs : FileAccess m) (path : String) (d : Defaults) (draws : Draws) :
    ExceptT CommandError m Mesh := do
  let t ← (readDocument fs Topology.ofJson path).adapt CommandError.mesh
  (Mesh.compile t d draws).mapError CommandError.mesh

/-! ## Commands -/

/-- The name of a host's file. A hostname that names another directory is refused. -/
def fileName (hostname : String) : Except CommandError String :=
  if hostname = "." ∨ hostname = ".." ∨ hostname.toList.contains '/' ∨
      hostname.toList.contains '\\' then
    .error (.unsafeHostname hostname)
  else .ok (hostname ++ ".conf")

/-- The configuration files of a mesh in a directory, each with its path and its host's name. -/
def plan (output : String) :
    List (String × Config) → Except CommandError (List (WrittenFile × String))
  | [] => .ok []
  | (hostname, c) :: rest => do
    let name ← fileName hostname
    let files ← plan output rest
    return (⟨hostname, Path.join output name⟩, c.ini) :: files

/-- Writes files in order. -/
def writeFiles (fs : FileAccess m) : List (WrittenFile × String) → ExceptT CommandError m Unit
  | [] => return ()
  | (f, text) :: rest => do
    writeText fs f.path text
    writeFiles fs rest

/-- Compiles a topology and writes one configuration for each host. -/
def generate (fs : FileAccess m) (draws : Draws) (d : Defaults) (args : GenerateArgs) :
    ExceptT CommandError m Summary := do
  let mesh ← loadMesh fs args.topology d draws
  let files ← plan args.output mesh.configs
  (fs.makeDirs args.output).adapt CommandError.file
  writeFiles fs files
  if let some path := args.resolved then
    writeText fs path (mesh.topology.pretty ++ "\n")
  return {
    network := mesh.topology.name
    subnet := mesh.subnet.text
    files := files.map Prod.fst
    rekeyed := mesh.rekeyed
    resolved := args.resolved }

/-- Compiles a topology for the configuration of one host. -/
def configOf (fs : FileAccess m) (draws : Draws) (d : Defaults) (args : ShowArgs) :
    ExceptT CommandError m Config := do
  let mesh ← loadMesh fs args.topology d draws
  match mesh.configFor args.hostname with
  | some c => return c
  | none => throw (.hostNotFound args.hostname)

/-- The texts of a new key pair. -/
def newKeyPair (d : Draw) : KeyPairTexts :=
  let p := KeyPair.fresh d
  ⟨p.privateKey.text, p.publicKey.text⟩

/-- What a command prints. -/
def report (fs : FileAccess m) (draws : Draws) : Action → ExceptT CommandError m Report
  | .generate args => do
    let d ← loadDefaults fs args.defaults
    return .summary (← generate fs draws d args)
  | .show args => do
    let d ← loadDefaults fs args.defaults
    return .config (← configOf fs draws d args)
  | .keygen => return .keyPair (newKeyPair (draws 0))
  | .pubkey key => do
    return .publicKey (← (publicTextFor key).mapError CommandError.invalidPrivateKey)

/-- Carries out a command line. The result is what is to be printed. -/
def run (fs : FileAccess m) (draws : Draws) (i : Invocation) : ExceptT CommandError m String := do
  let r ← report fs draws i.action
  return r.print i.format

end TunnelMesh.Command
