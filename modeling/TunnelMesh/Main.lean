import TunnelMesh.Command.Run

/-!
# The program

The command line on the files of the disk. All decisions are those of `Command.parse` and
`Command.run`; here arguments are taken, randomness is drawn, and results are printed.
-/

namespace TunnelMesh.Command

/-- The error of a file operation of the system. -/
def fileErrorOf : IO.Error → FileError
  | .noFileOrDirectory .. => .notFound
  | .inappropriateType _ 20 _ => .notDirectory
  | .inappropriateType .. => .isDirectory
  | .alreadyExists .. => .exists
  | .invalidArgument _ 36 _ => .nameTooLong
  | e => .other (toString e)

/-- A file operation of the system, with its failure as a value. -/
def attempt {α : Type} (act : IO α) : ExceptT FileError IO α :=
  ExceptT.mk do
    match ← act.toBaseIO with
    | .ok a => return .ok a
    | .error e => return .error (fileErrorOf e)

/-- The files of the disk. -/
def disk : FileAccess IO where
  read path := do return (← attempt (IO.FS.readBinFile path)).toList
  makeDirs path := attempt (IO.FS.createDirAll path)
  write path content := attempt (IO.FS.writeBinFile path ⟨content.toArray⟩)

/-- The text that says how the program is used. -/
def usageText : String :=
  unlines [
    "Usage: wgmesh [-f text|json] <COMMAND>",
    "",
    "  generate <TOPOLOGY> [-o DIR] [--resolved FILE] [DEFAULTS]",
    "  show <TOPOLOGY> <HOSTNAME> [DEFAULTS]",
    "  keygen",
    "  pubkey <PRIVATE_KEY>",
    "",
    "DEFAULTS: --defaults FILE, --address, --netmask, --listen-port, --dns, --mtu, --table,",
    "  --keepalive"]

/-- The program: it ends with 0, with 1 after an error and with 2 when it is not used rightly. -/
def execute (args : List String) : IO UInt32 := do
  match parse (← IO.getEnv "WGMESH_DEFAULTS") args with
  | .error .version =>
    IO.print versionText
    return 0
  | .error .help =>
    IO.print usageText
    return 0
  | .error .usage =>
    IO.eprint usageText
    return 2
  | .ok invocation =>
    let seed ← IO.getRandomBytes 64
    match ← (run disk (Draw.expand seed.toList) invocation).run with
    | .ok text =>
      IO.print text
      return 0
    | .error e =>
      IO.eprintln ("Error: " ++ e.message)
      return 1

end TunnelMesh.Command

/-- The entry of the program. -/
def main (args : List String) : IO UInt32 :=
  TunnelMesh.Command.execute args
