import Mathlib
import TunnelMesh.Proofs.Mesh.Rekeying

/-!
# The files of a mesh compiled again

A resolved topology need not be the same when it is compiled again: the tables of its hosts are
trimmed once more. But nothing else changes where all keys are accepted again
(`Mesh.exists_recompile_of_kept`), and a file shows a table without blanks anyway, so all files are
the same byte for byte (`Mesh.map_ini_configs_recompiled`).
-/

namespace TunnelMesh

/-- In a topology of which some hosts were given new keys, each pair of keys that was kept is a true
pair: the public key is the one that the private key has. -/
def Topology.KeptPairsMatch (t : Topology) (rekeyed : List String) : Prop :=
  ∀ host ∈ t.hosts, host.ignoreDefault = false → host.trimmedName ∉ rekeyed →
    ∀ k p, host.privateKey = some k → host.publicKey = some p → KeyPair.Matches k p

/-- Blanks around a table are not shown in a file. -/
theorem Interface.ini_trim_table (i : Interface) :
    { i with table := i.table.map Text.trim }.ini = i.ini := by
  rw [ini, ini, lines, lines, Text.nonBlank_map_trim]

namespace Mesh

variable {t : Topology} {d : Defaults} {draws : Draws} {m : Mesh}

/-- Keys that were given to a host and true pairs that it had are accepted again, whatever is
drawn. -/
theorem keys_kept_of_match (h : compile t d draws = .ok m) (hmatch : t.KeptPairsMatch m.rekeyed)
    {r : Host} (hr : r ∈ m.topology.hosts) (draw : Draw) :
    r.ignoreDefault = true ∨ r.rekeyReason draw = none := by
  cases hignore : r.ignoreDefault with
  | true => exact .inl rfl
  | false =>
    obtain ⟨k, p, hk, hp, hreason⟩ := (isSettled_of_compile h hr).exists_keys hignore
    refine .inr ((hreason draw).2 ?_)
    obtain ⟨i, host, hi, hhost, hsame, hname⟩ := exists_host_of_compile h hr
    by_cases hrekeyed : r.hostname ∈ m.rekeyed
    · obtain ⟨k', p', hk', hp', -, -, haccepts⟩ := usable_of_compile h hr hignore
      obtain rfl : k = k' := Option.some.inj (hk.symm.trans hk')
      obtain rfl : p = p' := Option.some.inj (hp.symm.trans hp')
      exact KeyPair.agree_eq_true.2 (haccepts hrekeyed draw)
    · rw [hname] at hrekeyed
      have hkept : host.ignoreDefault = true ∨ host.rekeyReason (draws i) = none := by
        rw [mem_rekeyed_iff h hhost, not_and_not_right] at hrekeyed
        exact .inr (hrekeyed (hsame ▸ hignore))
      obtain ⟨r', hr', hprivate, hpublic⟩ := kept_of_compile h hhost hkept
      obtain rfl : r = r' := Option.some.inj (hi.symm.trans hr')
      obtain ⟨k', hk', rfl⟩ := Option.map_eq_some_iff.1 (hprivate.symm.trans hk)
      obtain ⟨p', hp', rfl⟩ := Option.map_eq_some_iff.1 (hpublic.symm.trans hp)
      have hpair : KeyPair.Matches k' p' :=
        hmatch host (List.mem_of_getElem? hhost) (hsame ▸ hignore) hrekeyed k' p' hk' hp'
      rw [KeyPair.agree_trim]
      exact KeyPair.agree_of_denoteOnePoint hpair.denoteOnePoint draw

/-- A mesh that is compiled again from its topology has the same subnet. -/
theorem subnet_recompiled {m' : Mesh} {draws' : Draws} (h : compile t d draws = .ok m)
    (h' : compile m.topology d draws' = .ok m') : m'.subnet = m.subnet := by
  obtain ⟨p, hp, -, -, rfl⟩ := compile_eq_ok.1 h
  obtain ⟨p', hp', -, -, rfl⟩ := compile_eq_ok.1 h'
  have hpool : ((t.withDefaultSubnet d).withDefaultSubnet d).pool = .ok p' := hp'
  rw [t.withDefaultSubnet_withDefaultSubnet, hp] at hpool
  cases hpool
  rfl

/-- Where all keys are accepted again, a mesh compiled again differs only by trimmed hosts. -/
theorem exists_recompile_of_kept (h : compile t d draws = .ok m) {draws' : Draws}
    (hkept : ∀ (i : Nat) (host : Host), m.topology.hosts[i]? = some host →
      host.ignoreDefault = true ∨ host.rekeyReason (draws' i) = none) :
    ∃ m', compile m.topology d draws' = .ok m' ∧ m'.rotations = [] ∧ m'.subnet = m.subnet ∧
      m'.persistentKeepalive = m.persistentKeepalive ∧
        m'.topology = m.topology.withHosts (m.topology.hosts.map Host.trimmed) := by
  obtain ⟨m', hm', htopology, hrotations, hkeepalive⟩ := exists_recompile h draws'
  refine ⟨m', hm', ?_, subnet_recompiled h hm', hkeepalive, ?_⟩
  · rw [hrotations, rotationsOf_eq_nil]
    intro i host hi
    obtain ⟨before, hbefore, rfl⟩ := Option.map_eq_some_iff.1 (List.getElem?_map ▸ hi)
    rw [Host.rekeyReason_trimmed]
    exact hkept i before hbefore
  · rw [htopology, ← List.mapIdx_eq_map]
    refine congrArg m.topology.withHosts (List.mapIdx_eq_mapIdx_iff.2 fun i hi => ?_)
    have hget := List.getElem?_eq_getElem hi
    exact (isSettled_of_compile h (List.mem_of_getElem? hget)).settled_trimmed (hkept i _ hget)

/-- A mesh whose hosts are trimmed once more has the same files. -/
theorem map_ini_configs_recompiled {m' : Mesh} (h : compile t d draws = .ok m)
    (hkeepalive : m'.persistentKeepalive = m.persistentKeepalive)
    (htopology : m'.topology = m.topology.withHosts (m.topology.hosts.map Host.trimmed)) :
    m'.configs.map (fun c => (c.1, c.2.ini)) = m.configs.map fun c => (c.1, c.2.ini) := by
  have hstations : m'.stations = m.stations.map fun s => s.withHost s.host.trimmed := by
    rw [stations, htopology, Topology.stations_withHosts_map, stations]
  have htrimmed : ∀ s ∈ m.stations,
      s.host.trimmed = { s.host with table := s.host.table.map Text.trim } := by
    intro s hs
    refine (isSettled_of_compile h ?_).isTrimmed.trimmed_eq
    rw [← Topology.map_host_stations]
    exact List.mem_map_of_mem hs
  have hconfig : ∀ own ∈ m.stations, m'.config (own.withHost own.host.trimmed) =
      { m.config own with
        interface := { own.interface with table := own.interface.table.map Text.trim } } := by
    intro own hown
    have hpeers : m'.stations.map (fun peer =>
        peer.peer (own.withHost own.host.trimmed) m.persistentKeepalive) =
          m.stations.map fun peer => peer.peer own m.persistentKeepalive := by
      rw [hstations, List.map_map]
      refine List.map_congr_left fun peer hpeer => ?_
      rw [Function.comp_apply, htrimmed peer hpeer]
      rfl
    rw [config_eq, config_eq, hkeepalive, hpeers, htopology, htrimmed own hown]
    rfl
  rw [configs_eq, configs_eq, hstations, List.map_map, List.map_map, List.map_map]
  refine List.map_congr_left fun own hown => ?_
  simp only [Function.comp_apply]
  rw [hconfig own hown, Config.ini, Config.sections, Interface.ini_trim_table, htrimmed own hown]
  rfl

end Mesh

end TunnelMesh
