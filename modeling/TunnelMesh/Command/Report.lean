import TunnelMesh.Command.Arguments
import TunnelMesh.Config.Document
import TunnelMesh.Config.Ini

/-!
# Reports

What the commands print, as text for people and as JSON for other programs.
-/

namespace TunnelMesh.Command

open Json

/-- A configuration file that was written. -/
structure WrittenFile where
  hostname : String
  path : String
  deriving DecidableEq, Repr

/-- What `generate` did. -/
structure Summary where
  network : String
  subnet : String
  /-- The files in the order of the topology. -/
  files : List WrittenFile
  /-- The hosts that were given new keys. -/
  rekeyed : List String
  /-- Where the topology without gaps was saved, if it was. -/
  resolved : Option String
  deriving DecidableEq, Repr

/-- The two texts of a key pair. -/
structure KeyPairTexts where
  privateKey : String
  publicKey : String
  deriving DecidableEq, Repr

/-- What a command prints. -/
inductive Report where
  | summary (s : Summary)
  | config (c : Config)
  | keyPair (p : KeyPairTexts)
  | publicKey (text : String)
  deriving DecidableEq, Repr

/-- A text filled up with spaces at its end to a number of characters. -/
def padded (width : Nat) (s : String) : String :=
  s ++ String.ofList (List.replicate (width - s.length) ' ')

/-- The lines of a summary. -/
def Summary.lines (s : Summary) : List String :=
  ("Network " ++ s.network ++ " (" ++ s.subnet ++ "): " ++ Decimal.text s.files.length ++
      " configuration(s)") ::
    (s.files.map (fun f => "  " ++ padded 24 f.hostname ++ " " ++ f.path) ++
      ((if s.rekeyed.isEmpty then [] else ["New keys: " ++ ", ".intercalate s.rekeyed]) ++
        (s.resolved.map ("Resolved topology: " ++ ·)).toList))

/-- Lines, each with a line break at its end. -/
def unlines (lines : List String) : String :=
  String.join (lines.map (· ++ "\n"))

/-- A summary as a JSON value; the last member is left out where nothing was saved. -/
def Summary.json (s : Summary) : Value :=
  .record <|
    [("network", .text s.network),
     ("subnet", .text s.subnet),
     ("files", .list (s.files.map fun f =>
        .record [("hostname", .text f.hostname), ("path", .text f.path)])),
     ("rekeyed", .ofTexts s.rekeyed)] ++
    (s.resolved.map fun path => ("resolved", Value.text path)).toList

/-- The text of a report for people. -/
def Report.text : Report → String
  | .summary s => unlines s.lines
  | .config c => c.ini
  | .keyPair p => unlines ["PrivateKey = " ++ p.privateKey, "PublicKey = " ++ p.publicKey]
  | .publicKey key => unlines [key]

/-- A report as a JSON value. -/
def Report.json : Report → Value
  | .summary s => s.json
  | .config c => c.json
  | .keyPair p =>
    .record [("private_key", .text p.privateKey), ("public_key", .text p.publicKey)]
  | .publicKey key => .record [("public_key", .text key)]

/-- The program's name and version. -/
def versionText : String :=
  unlines ["wgmesh 0.1.0"]

/-- A report in a format. -/
def Report.print (r : Report) : Format → String
  | .text => r.text
  | .json => r.json.pretty ++ "\n"

end TunnelMesh.Command
