import TunnelMesh.Net.Ipv6

/-!
# Host configurations

What one host of a compiled mesh is configured with: its own interface, and a peer for each host
of the mesh.
-/

namespace TunnelMesh

/-- Where packets for a peer are sent. The host is kept as written, so that it may be a name. -/
structure Endpoint where
  host : String
  port : UInt16
  deriving DecidableEq, Repr

/-- The text of an endpoint: a colon before the port, and brackets around an IPv6 address. -/
def Endpoint.text (e : Endpoint) : String :=
  if Ipv6.isLiteral e.host then "[" ++ e.host ++ "]:" ++ Decimal.text e.port.toNat
  else e.host ++ ":" ++ Decimal.text e.port.toNat

/-- The interface of a host. -/
structure Interface where
  /-- The host's name. -/
  name : String := ""
  address : Option String := none
  listenPort : Option UInt16 := none
  privateKey : Option String := none
  dns : List String := []
  table : Option String := none
  mtu : Option UInt32 := none
  preUp : List String := []
  postUp : List String := []
  preDown : List String := []
  postDown : List String := []
  deriving DecidableEq, Repr, Inhabited

/-- A host of the mesh as another host is to reach it. -/
structure Peer where
  /-- The name of the host reached. -/
  name : String := ""
  endpoint : Option Endpoint := none
  publicKey : Option String := none
  /-- The addresses whose packets go to the peer. -/
  allowedIps : List String := []
  persistentKeepalive : Option UInt16 := none
  deriving DecidableEq, Repr, Inhabited

/-- The configuration of a host. -/
structure Config where
  /-- The name of the mesh. -/
  network : String := ""
  interface : Interface := {}
  peers : List Peer := []
  deriving DecidableEq, Repr, Inhabited

/-- The name of the host that a configuration is for. -/
def Config.hostname (c : Config) : String :=
  c.interface.name

end TunnelMesh
