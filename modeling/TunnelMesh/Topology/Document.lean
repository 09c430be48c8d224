import TunnelMesh.Json.Codec
import TunnelMesh.Topology.Basic
import TunnelMesh.Error

/-!
# Topology documents

The JSON documents of topologies, defaults and requests: one schema for each record, from which
documents are both read and written. Every member may be left out but a group's visibility and a
request's topology.
-/

namespace TunnelMesh

open Json

/-- The names under which a visibility is read. -/
def Visibility.names : List (String × Visibility) :=
  [("OPEN", .openNat), ("OPEN_NAT", .openNat), ("RELAYED", .relayed), ("BRIDGE_NAT", .relayed),
   ("CLOUD", .cloud), ("WAN", .wan)]

/-- Visibilities in documents. -/
def Visibility.codec : Codec Visibility :=
  Codec.named Visibility.names Visibility.name

namespace Server

/-- Machines in documents. -/
def schema : Schema Server where
  blank := {}
  fields := [
    .always "hostname" [] false .text (·.hostname) fun v r => { r with hostname := v },
    .optional "public_address" .text (·.publicAddress) fun v r => { r with publicAddress := v },
    .optional "private_address" .text (·.privateAddress) fun v r => { r with privateAddress := v }]

end Server

namespace Host

/-- Hosts in documents. -/
def schema : Schema Host where
  blank := {}
  fields := [
    .always "server" ["server_node"] false Server.schema.codec (·.server)
      fun v r => { r with server := v },
    .optional "address" .text (·.address) fun v r => { r with address := v },
    .optional "public_key" .text (·.publicKey) fun v r => { r with publicKey := v },
    .optional "private_key" .text (·.privateKey) fun v r => { r with privateKey := v },
    .optional "listen_port" .uint16 (·.listenPort) fun v r => { r with listenPort := v },
    .entries "dns" .text (·.dns) fun v r => { r with dns := v },
    .optional "table" .text (·.table) fun v r => { r with table := v },
    .optional "mtu" .uint32 (·.mtu) fun v r => { r with mtu := v },
    .entries "pre_up" .text (·.preUp) fun v r => { r with preUp := v },
    .entries "post_up" .text (·.postUp) fun v r => { r with postUp := v },
    .entries "pre_down" .text (·.preDown) fun v r => { r with preDown := v },
    .entries "post_down" .text (·.postDown) fun v r => { r with postDown := v },
    .always "ignore_default" [] false .bool (·.ignoreDefault)
      fun v r => { r with ignoreDefault := v }]

end Host

namespace Group

/-- Groups in documents. -/
def schema : Schema Group where
  blank := { visibility := .openNat }
  fields := [
    .always "name" [] false .text (·.name) fun v r => { r with name := v },
    .always "visibility" ["network_type"] true Visibility.codec (·.visibility)
      fun v r => { r with visibility := v },
    .always "hosts" ["network_nodes"] false (.list Host.schema.codec) (·.hosts)
      fun v r => { r with hosts := v }]

end Group

namespace Topology

/-- Topologies in documents. -/
def schema : Schema Topology where
  blank := {}
  fields := [
    .always "name" [] false .text (·.name) fun v r => { r with name := v },
    .optional "address" .text (·.address) fun v r => { r with address := v },
    .optional "netmask" .text (·.netmask) fun v r => { r with netmask := v },
    .always "groups" ["local_area_networks"] false (.list Group.schema.codec) (·.groups)
      fun v r => { r with groups := v }]

end Topology

namespace Defaults

/-- Defaults in documents. -/
def schema : Schema Defaults where
  blank := {}
  fields := [
    .optional "address" .text (·.address) fun v r => { r with address := v },
    .optional "netmask" .text (·.netmask) fun v r => { r with netmask := v },
    .optional "listen_port" .uint16 (·.listenPort) fun v r => { r with listenPort := v },
    .entries "dns" .text (·.dns) fun v r => { r with dns := v },
    .optional "table" .text (·.table) fun v r => { r with table := v },
    .optional "mtu" .uint32 (·.mtu) fun v r => { r with mtu := v },
    .entries "pre_up" .text (·.preUp) fun v r => { r with preUp := v },
    .entries "post_up" .text (·.postUp) fun v r => { r with postUp := v },
    .entries "pre_down" .text (·.preDown) fun v r => { r with preDown := v },
    .entries "post_down" .text (·.postDown) fun v r => { r with postDown := v },
    .optional "persistent_keepalive" .uint16 (·.persistentKeepalive)
      fun v r => { r with persistentKeepalive := v }]

end Defaults

namespace Request

/-- Requests in documents. -/
def schema : Schema Request where
  blank := {}
  fields := [
    .always "properties" [] false Defaults.schema.codec (·.defaults)
      fun v r => { r with defaults := v },
    .always "struct" [] true Topology.schema.codec (·.topology)
      fun v r => { r with topology := v }]

end Request

/-! ## Reading documents -/

/-- The value of a document, with its defect as an error of the mesh. -/
def readDocument {α : Type} (s : Schema α) (text : String) : Except MeshError α :=
  (s.codec.parse text).mapError .document

/-- The topology of a document. -/
def Topology.ofJson : String → Except MeshError Topology :=
  readDocument Topology.schema

/-- The defaults of a document. -/
def Defaults.ofJson : String → Except MeshError Defaults :=
  readDocument Defaults.schema

/-- The request of a document. -/
def Request.ofJson : String → Except MeshError Request :=
  readDocument Request.schema

/-- The compact document of a topology. -/
def Topology.compact (t : Topology) : String :=
  Topology.schema.codec.compact t

/-- The pretty document of a topology. -/
def Topology.pretty (t : Topology) : String :=
  Topology.schema.codec.pretty t

/-- The compact document of defaults. -/
def Defaults.compact (d : Defaults) : String :=
  Defaults.schema.codec.compact d

/-- The compact document of a request. -/
def Request.compact (r : Request) : String :=
  Request.schema.codec.compact r

end TunnelMesh
