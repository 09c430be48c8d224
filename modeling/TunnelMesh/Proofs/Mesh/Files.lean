import Mathlib
import TunnelMesh.Proofs.Config.Lines
import TunnelMesh.Proofs.Mesh.Stations

/-!
# The files of a mesh

The file of a host has a section for its interface and one for every host of the mesh. Values are
trimmed, but nothing is done about line breaks inside them, so the file has the lines that it should
have just when no text that it shows has such a break (`Mesh.wellLined_file_iff`): the host's own
settings, and of every other host the name, the address inside the mesh and the address at which it
is reached.
-/

namespace TunnelMesh

open Ini Text

/-- The hooks of a host, with their labels. -/
def Host.hooks (h : Host) : List (String × List String) :=
  [("PreUp", h.preUp), ("PostUp", h.postUp), ("PreDown", h.preDown), ("PostDown", h.postDown)]

/-- The texts of a station that the file of another host shows as they are given: the name, the
address at which the other host reaches the station, if it listens on a port, and the address inside
the mesh. -/
def Station.shownTo (s requester : Station) : List String :=
  (shown (some s.hostname)).toList ++
    ((if s.host.listenPort = none then none else s.reachedAt requester).toList ++
      (shown s.host.address).toList)

namespace Station

/-- Announced keys are shown without line breaks. -/
theorem newline_not_mem_announcedKey (s : Station) :
    ∀ v ∈ (shown s.announcedKey).toList, '\n' ∉ v.toList := by
  rw [← nonBlank_eq_shown]
  cases hannounced : s.announcedKey with
  | none => simp [nonBlank]
  | some v =>
    obtain ⟨key, rfl⟩ := exists_eq_encode_of_announcedKey hannounced
    rw [Key.nonBlank_encode, Option.toList_some, List.forall_mem_singleton, Base64.encode,
      String.toList_ofList]
    exact fun hbreak => absurd (Base64.isBlank_encodeChars _ hbreak) (by decide)

/-- The address that packets are sent for is shown once. -/
theorem shownAll_allowedIps (s : Station) :
    shownAll s.allowedIps = (shown s.host.address).toList := by
  rw [allowedIps, nonBlank_eq_shown]
  cases haddress : shown s.host.address with
  | none => rfl
  | some a =>
    rw [Option.toList_some, shownAll_singleton, shown_of_shown haddress, Option.toList_some]

/-- The host of an endpoint is the address at which a station is reached. -/
theorem map_host_endpointFor (s requester : Station) : (s.endpointFor requester).map Endpoint.host =
    if s.host.listenPort = none then none else s.reachedAt requester := by
  rw [endpointFor, addressFor_eq_reachedAt]
  cases s.reachedAt requester <;> cases s.host.listenPort <;> simp

/-- The texts of a peer are those that its station shows, and its key. -/
theorem newline_not_mem_texts_peer (s requester : Station) (keepalive : Option UInt16) :
    (∀ v ∈ (s.peer requester keepalive).texts, '\n' ∉ v.toList) ↔
      ∀ v ∈ s.shownTo requester, '\n' ∉ v.toList := by
  simp only [peer, peerWith, Peer.texts, shownTo, List.forall_mem_append, shownAll_allowedIps,
    map_host_endpointFor, iff_true_intro s.newline_not_mem_announcedKey, true_and]

end Station

namespace Mesh

variable {t : Topology} {d : Defaults} {draws : Draws} {m : Mesh} {s : Station}

/-- The texts that a file shows: those of its host's interface, and some of every host. -/
theorem newline_not_mem_texts_iff (m : Mesh) (s : Station) :
    (∀ v ∈ (m.config s).texts, '\n' ∉ v.toList) ↔
      (∀ v ∈ s.interface.texts, '\n' ∉ v.toList) ∧
        ∀ peer ∈ m.stations, ∀ v ∈ peer.shownTo s, '\n' ∉ v.toList := by
  rw [Config.texts, List.forall_mem_append, List.forall_mem_flatMap, peers_config,
    List.forall_mem_map]
  exact and_congr_right fun _ => forall₂_congr fun peer _ =>
    peer.newline_not_mem_texts_peer s m.persistentKeepalive

/-- The file of a host has a section for the interface and one for every host, a line for each field
and a line for each of the host's own hooks, and no other lines, just when no text that it shows has
a line break in it. -/
theorem wellLined_file_iff (h : compile t d draws = .ok m) (hs : s ∈ m.stations) :
    m.configFor s.hostname = some (m.config s) ∧
      (m.config s).peers.length = t.hosts.length ∧
      (∀ hook ∈ s.host.hooks, (m.config s).valuesOf hook.1 = shownAll hook.2) ∧
      ((m.config s).WellLined (fileLines (m.config s).ini) ↔
        (∀ v ∈ s.interface.texts, '\n' ∉ v.toList) ∧
          ∀ peer ∈ m.stations, ∀ v ∈ peer.shownTo s, '\n' ∉ v.toList) := by
  refine ⟨configFor_hostname h hs, ?_, fun hook hhook => (m.config s).valuesOf_hook hhook, ?_⟩
  · have hlength := congrArg List.length (hostnames_of_compile h)
    rw [List.length_map, List.length_map] at hlength
    rw [peers_config, List.length_map, stations, Topology.length_stations, hlength]
  · rw [Config.wellLined_fileLines_iff, newline_not_mem_texts_iff]

/-- A mesh of one host of a name, with nothing to be filled in. -/
def loneMesh (hostname : String) : Mesh where
  topology := {
    address := some "10.0.0.0/29"
    groups := [{ name := "a", visibility := .wan, hosts := [
      { server := { hostname := hostname }, ignoreDefault := true }] }] }
  subnet := ⟨Ipv4.ofOctets 10 0 0 0, 29, by decide⟩
  rotations := []
  persistentKeepalive := none

/-- The only station of such a mesh. -/
def loneStation (hostname : String) : Station where
  host := { server := { hostname := hostname }, ignoreDefault := true }
  groupIndex := 0
  groupName := "a"
  visibility := .wan
  isRelay := false

/-- The file of a mesh of one host without line breaks. -/
theorem wellLined_file_loneMesh : ∃ m s,
    compile (loneMesh "a1").topology {} (Draw.expand []) = .ok m ∧ s ∈ m.stations ∧
      (m.config s).WellLined (fileLines (m.config s).ini) := by
  have hcompile : compile (loneMesh "a1").topology {} (Draw.expand []) = .ok (loneMesh "a1") := by
    decide +kernel
  have hstation : loneStation "a1" ∈ (loneMesh "a1").stations := by decide +kernel
  exact ⟨_, _, hcompile, hstation,
    (wellLined_file_iff hcompile hstation).2.2.2.2 (by decide +kernel)⟩

/-- A line break in the name of a host becomes a line of its own wherever the name is shown: here a
command that no host has declared. -/
theorem file_of_name_with_newline : ∃ m s,
    compile (loneMesh "a1\nPostUp = id").topology {} (Draw.expand []) = .ok m ∧ s ∈ m.stations ∧
      fileLines (m.config s).ini =
        ["[Interface]", "# Name = a1", "PostUp = id", "", "[Peer]", "# Name = a1", "PostUp = id"] ∧
      ¬ (m.config s).WellLined (fileLines (m.config s).ini) := by
  have hlines : fileLines ((loneMesh "a1\nPostUp = id").config
      (loneStation "a1\nPostUp = id")).ini =
        ["[Interface]", "# Name = a1", "PostUp = id", "", "[Peer]", "# Name = a1",
          "PostUp = id"] := by decide +kernel
  refine ⟨loneMesh "a1\nPostUp = id", loneStation "a1\nPostUp = id", by decide +kernel,
    by decide +kernel, hlines, fun hwell => ?_⟩
  have hlength := hwell.length_eq
  rw [hlines] at hlength
  exact absurd hlength (by decide +kernel)

end Mesh

end TunnelMesh
