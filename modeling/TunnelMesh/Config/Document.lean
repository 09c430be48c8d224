import TunnelMesh.Config.Basic
import TunnelMesh.Json.Value

/-!
# Configuration documents

A configuration as a JSON value. All members are written, `null` where there is no value and the
empty list where there is no entry.
-/

namespace TunnelMesh

open Json

/-- An interface as a JSON value. -/
def Interface.json (i : Interface) : Value :=
  .record [
    ("name", .text i.name),
    ("address", .ofText? i.address),
    ("listen_port", .ofNumber? (i.listenPort.map UInt16.toNat)),
    ("private_key", .ofText? i.privateKey),
    ("dns", .ofTexts i.dns),
    ("table", .ofText? i.table),
    ("mtu", .ofNumber? (i.mtu.map UInt32.toNat)),
    ("pre_up", .ofTexts i.preUp),
    ("post_up", .ofTexts i.postUp),
    ("pre_down", .ofTexts i.preDown),
    ("post_down", .ofTexts i.postDown)]

/-- An endpoint as a JSON value: its text. -/
def Endpoint.json (e : Endpoint) : Value :=
  .text e.text

/-- A peer as a JSON value. -/
def Peer.json (p : Peer) : Value :=
  .record [
    ("name", .text p.name),
    ("endpoint", .ofText? (p.endpoint.map Endpoint.text)),
    ("public_key", .ofText? p.publicKey),
    ("allowed_ips", .ofTexts p.allowedIps),
    ("persistent_keepalive", .ofNumber? (p.persistentKeepalive.map UInt16.toNat))]

/-- A configuration as a JSON value. -/
def Config.json (c : Config) : Value :=
  .record [
    ("network", .text c.network),
    ("interface", c.interface.json),
    ("peers", .list (c.peers.map Peer.json))]

end TunnelMesh
