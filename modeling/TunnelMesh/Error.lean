import TunnelMesh.Json.Token
import TunnelMesh.Text.Base64

/-!
# Errors of the mesh

Everything that can go wrong from a document to the compiled mesh, one constructor for each
cause, with the wording of all of them in `MeshError.message`.
-/

namespace TunnelMesh

/-- Why a file could not be read or written. -/
inductive FileError where
  | notFound
  | isDirectory
  | notDirectory
  | exists
  | nameTooLong
  | nulByte
  | notUtf8
  | other (text : String)
  deriving DecidableEq, Repr

/-- The wording of a file error. -/
def FileError.message : FileError → String
  | .notFound => "No such file or directory (os error 2)"
  | .isDirectory => "Is a directory (os error 21)"
  | .notDirectory => "Not a directory (os error 20)"
  | .exists => "File exists (os error 17)"
  | .nameTooLong => "File name too long (os error 36)"
  | .nulByte => "file name contained an unexpected NUL byte"
  | .notUtf8 => "stream did not contain valid UTF-8"
  | .other text => text

/-- Why a text is not the subnet, address or netmask that it should be. -/
inductive SubnetDefect where
  /-- The text is not `address/length`. -/
  | notSubnet (text : String)
  /-- The text is not an address. -/
  | notAddress (text : String)
  /-- The ones of the netmask do not all stand before its zeros. -/
  | notMask (text : String)
  /-- The address is given without length and without netmask. -/
  | noMask (address : String)
  deriving DecidableEq, Repr

/-- The wording of a subnet's defect. -/
def SubnetDefect.message : SubnetDefect → String
  | .notSubnet t => t ++ ": invalid IP address syntax"
  | .notAddress t => t ++ ": invalid IPv4 address syntax"
  | .notMask t => t ++ ": invalid IP prefix length"
  | .noMask t => t ++ ": no netmask given"

/-- Why a mesh could not be read or compiled. -/
inductive MeshError where
  | document (d : Json.Defect)
  | file (e : FileError)
  | missingSubnet
  | invalidSubnet (d : SubnetDefect)
  | missingHostname (group : String)
  | duplicateHostname (hostname : String)
  | subnetExhausted (hostname : String) (subnet : String)
  | invalidBase64 (d : Base64.Defect)
  | invalidKeyLength (length : Nat)
  deriving DecidableEq, Repr

/-- The wording of a document's defect. -/
def Json.Defect.message : Json.Defect → String
  | .ended => "the text ends too early"
  | .malformed => "the text is not JSON"
  | .mismatched => "the value has another shape"

/-- The wording of an error. -/
def MeshError.message : MeshError → String
  | .document d => "invalid document: " ++ d.message
  | .file e => "I/O error: " ++ e.message
  | .missingSubnet => "no subnet configured: topology and defaults both lack an address"
  | .invalidSubnet d => "invalid subnet: " ++ d.message
  | .missingHostname group => "host in group '" ++ group ++ "' has an empty hostname"
  | .duplicateHostname hostname => "hostname '" ++ hostname ++ "' is declared more than once"
  | .subnetExhausted hostname subnet =>
    "subnet " ++ subnet ++ " has no free address left for host '" ++ hostname ++ "'"
  | .invalidBase64 d => "invalid base64 encoding: " ++ d.message
  | .invalidKeyLength n => "invalid key length: expected 32, got " ++ Decimal.text n

end TunnelMesh
