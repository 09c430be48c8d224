import Mathlib
import TunnelMesh.Config.Basic
import TunnelMesh.Proofs.Text.Trim

/-!
# What a configuration shows

Which of the settings of a configuration its file is to show, and how: texts are trimmed, and those
of which nothing is left are missing, servers and addresses stand in one text with commas between
them, and the commands of a hook one by one (`Config.shown`). The labels that the values stand
behind are in one table for each kind of section (`Interface.Shown.rows`, `Peer.Shown.rows`).
-/

namespace TunnelMesh

open Text

/-- Several texts in one: what is shown of each, with commas between them, if there is any. -/
def Text.shownJoined (ss : List String) : Option String :=
  if shownAll ss = [] then none else some (",".intercalate (shownAll ss))

/-! ## Sections -/

/-- What the section of an interface shows. -/
structure Interface.Shown where
  name : Option String
  address : Option String
  listenPort : Option UInt16
  privateKey : Option String
  dns : Option String
  table : Option String
  mtu : Option UInt32
  preUp : List String
  postUp : List String
  preDown : List String
  postDown : List String
  deriving DecidableEq

/-- What the section of a peer shows. An endpoint is a host and a port. -/
structure Peer.Shown where
  name : Option String
  endpoint : Option (String × UInt16)
  publicKey : Option String
  allowedIps : Option String
  persistentKeepalive : Option UInt16
  deriving DecidableEq

/-- What the file of a configuration shows. -/
structure Config.Shown where
  interface : Interface.Shown
  peers : List Peer.Shown
  deriving DecidableEq

/-- What is shown of an endpoint: the host as it is, but in brackets if it is an IPv6 address. -/
def Endpoint.shown (e : Endpoint) : String × UInt16 :=
  (if Ipv6.isLiteral e.host then "[" ++ e.host ++ "]" else e.host, e.port)

/-- What is shown of an interface. -/
def Interface.shown (i : Interface) : Interface.Shown where
  name := Text.shown (some i.name)
  address := Text.shown i.address
  listenPort := i.listenPort
  privateKey := Text.shown i.privateKey
  dns := shownJoined i.dns
  table := Text.shown i.table
  mtu := i.mtu
  preUp := shownAll i.preUp
  postUp := shownAll i.postUp
  preDown := shownAll i.preDown
  postDown := shownAll i.postDown

/-- What is shown of a peer. -/
def Peer.shown (p : Peer) : Peer.Shown where
  name := Text.shown (some p.name)
  endpoint := p.endpoint.map Endpoint.shown
  publicKey := Text.shown p.publicKey
  allowedIps := shownJoined p.allowedIps
  persistentKeepalive := p.persistentKeepalive

/-- What is shown of a configuration, with the peers in their order. The name of the network is not.
-/
def Config.shown (c : Config) : Config.Shown where
  interface := c.interface.shown
  peers := c.peers.map Peer.shown

/-! ## Tables -/

/-- The table of an interface: the values that are shown with each label. -/
def Interface.Shown.rows (s : Interface.Shown) : List (String × List String) :=
  [("# Name", s.name.toList), ("Address", s.address.toList),
    ("ListenPort", (s.listenPort.map fun n => n.toNat.repr).toList),
    ("PrivateKey", s.privateKey.toList), ("DNS", s.dns.toList), ("Table", s.table.toList),
    ("MTU", (s.mtu.map fun n => n.toNat.repr).toList), ("PreUp", s.preUp), ("PostUp", s.postUp),
    ("PreDown", s.preDown), ("PostDown", s.postDown)]

/-- The table of a peer. -/
def Peer.Shown.rows (s : Peer.Shown) : List (String × List String) :=
  [("# Name", s.name.toList),
    ("Endpoint", (s.endpoint.map fun (host, port) => host ++ ":" ++ port.toNat.repr).toList),
    ("PublicKey", s.publicKey.toList), ("AllowedIPs", s.allowedIps.toList),
    ("PersistentKeepalive", (s.persistentKeepalive.map fun n => n.toNat.repr).toList)]

/-- The labels of an interface, in the order of their lines. -/
def Interface.labels : List String :=
  ["# Name", "Address", "ListenPort", "PrivateKey", "DNS", "Table", "MTU", "PreUp", "PostUp",
    "PreDown", "PostDown"]

/-- The labels of a peer, in the order of their lines. -/
def Peer.labels : List String :=
  ["# Name", "Endpoint", "PublicKey", "AllowedIPs", "PersistentKeepalive"]

/-- Every interface has a row for each label. -/
@[simp] theorem Interface.Shown.map_fst_rows (s : Interface.Shown) :
    s.rows.map Prod.fst = Interface.labels := rfl

/-- Every peer has a row for each label. -/
@[simp] theorem Peer.Shown.map_fst_rows (s : Peer.Shown) : s.rows.map Prod.fst = Peer.labels := rfl

end TunnelMesh
