import TunnelMesh.Topology.Basic

/-!
# Editing topologies

The changes by which a topology grows and is kept up to date: groups and hosts are added at the
end, a host is looked up and changed by its name, and all hosts may be replaced in order. Names
are compared as they are written. No change touches the name and the subnet of the mesh or the
order of what is there, so `hosts_withHosts` is all that is to be said of a replacement.
-/

namespace TunnelMesh

/-- The group with a host added at its end. -/
def Group.withHost (g : Group) (h : Host) : Group :=
  { g with hosts := g.hosts ++ [h] }

/-- The group without the hosts of a name. -/
def Group.withoutHost (hostname : String) (g : Group) : Group :=
  { g with hosts := g.hosts.filter (·.hostname ≠ hostname) }

namespace Topology

/-! ## Hosts in order -/

/-- Groups with their hosts replaced, in order, by those of a list. -/
def refill : List Group → List Host → List Group
  | [], _ => []
  | g :: gs, hs =>
    { g with hosts := hs.take g.hosts.length } :: refill gs (hs.drop g.hosts.length)

/-- The topology with its hosts replaced, in order, by those of a list. -/
def withHosts (t : Topology) (hs : List Host) : Topology :=
  { t with groups := refill t.groups hs }

theorem flatMap_hosts_refill (gs : List Group) (hs : List Host)
    (h : hs.length = (gs.flatMap (·.hosts)).length) : (refill gs hs).flatMap (·.hosts) = hs := by
  induction gs generalizing hs with
  | nil => exact (List.eq_nil_of_length_eq_zero h).symm
  | cons g gs ih =>
    rw [List.flatMap_cons, List.length_append] at h
    rw [refill, List.flatMap_cons, ih (hs.drop g.hosts.length) (by rw [List.length_drop]; omega)]
    exact List.take_append_drop ..

/-- A replacement by as many hosts as there are is the list of hosts afterwards. -/
theorem hosts_withHosts (t : Topology) (hs : List Host) (h : hs.length = t.hosts.length) :
    (t.withHosts hs).hosts = hs :=
  flatMap_hosts_refill t.groups hs h

/-! ## Changes -/

/-- The topology with its subnet given as `address/length`. -/
def withSubnet (t : Topology) (cidr : String) : Topology :=
  { t with address := some cidr, netmask := none }

/-- The topology with a group added at its end. -/
def withGroup (t : Topology) (g : Group) : Topology :=
  { t with groups := t.groups ++ [g] }

/-- The topology with a host added at the end of the group at a position, if there is one. -/
def withHost? (t : Topology) (position : Nat) (h : Host) : Option Topology :=
  if position < t.groups.length then
    some { t with groups := t.groups.modify position (·.withHost h) }
  else none

/-- The topology with the first host of a name changed, if there is one. -/
def modifyHost? (t : Topology) (hostname : String) (change : Host → Host) : Option Topology :=
  (t.hosts.findIdx? (·.hostname = hostname)).map fun i => t.withHosts (t.hosts.modify i change)

/-- The topology without the hosts of a name. -/
def withoutHost (t : Topology) (hostname : String) : Topology :=
  { t with groups := t.groups.map (Group.withoutHost hostname) }

end Topology

end TunnelMesh
