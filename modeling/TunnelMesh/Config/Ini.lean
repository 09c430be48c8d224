import TunnelMesh.Config.Basic
import TunnelMesh.Text.Blank

/-!
# Configuration files

A configuration as the text of a file: the section of the interface, then the section of each
peer, with a blank line between two sections. A section is its title and lines `Label = value`.
A value that is absent or blank has no line, values are trimmed, and a hook has a line for each
of its commands.
-/

namespace TunnelMesh.Ini

/-- The line of a label and a value. -/
def line (label value : String) : String :=
  label ++ " = " ++ value

/-- The line of a value, or none where there is no value. -/
def field (label : String) (value : Option String) : List String :=
  (value.map (line label)).toList

/-- The line of a number, or none where there is none. -/
def number (label : String) (n : Option Nat) : List String :=
  field label (n.map Decimal.text)

/-- The entries of a list that are not blank, trimmed and with commas between them. -/
def joined (entries : List String) : Option String :=
  match Text.nonBlanks entries with
  | [] => none
  | es => some (",".intercalate es)

/-- A line for each entry that is not blank. -/
def hook (label : String) (entries : List String) : List String :=
  (Text.nonBlanks entries).map (line label)

end Ini

open Ini

/-- The lines of an interface's section. -/
def Interface.lines (i : Interface) : List String :=
  "[Interface]" ::
    (field "# Name" (Text.nonBlank (some i.name)) ++
      (field "Address" (Text.nonBlank i.address) ++
        (number "ListenPort" (i.listenPort.map UInt16.toNat) ++
          (field "PrivateKey" (Text.nonBlank i.privateKey) ++
            (field "DNS" (joined i.dns) ++
              (field "Table" (Text.nonBlank i.table) ++
                (number "MTU" (i.mtu.map UInt32.toNat) ++
                  (hook "PreUp" i.preUp ++
                    (hook "PostUp" i.postUp ++
                      (hook "PreDown" i.preDown ++ hook "PostDown" i.postDown))))))))))

/-- The lines of a peer's section. -/
def Peer.lines (p : Peer) : List String :=
  "[Peer]" ::
    (field "# Name" (Text.nonBlank (some p.name)) ++
      (field "Endpoint" (p.endpoint.map Endpoint.text) ++
        (field "PublicKey" (Text.nonBlank p.publicKey) ++
          (field "AllowedIPs" (joined p.allowedIps) ++
            number "PersistentKeepalive" (p.persistentKeepalive.map UInt16.toNat)))))

/-- The section of an interface, without a line break at its end. -/
def Interface.ini (i : Interface) : String :=
  "\n".intercalate i.lines

/-- The section of a peer, without a line break at its end. -/
def Peer.ini (p : Peer) : String :=
  "\n".intercalate p.lines

/-- The sections of a configuration. -/
def Config.sections (c : Config) : List String :=
  c.interface.ini :: c.peers.map Peer.ini

/-- The file of a configuration. -/
def Config.ini (c : Config) : String :=
  "\n\n".intercalate c.sections ++ "\n"

end TunnelMesh
