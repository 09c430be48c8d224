import Mathlib
import TunnelMesh.Proofs.Mesh.Stability
import TunnelMesh.Proofs.Mesh.Stations

/-!
# Keys are repaired

A host that takes keys is given new ones just when a reason applies to those it has, and the first
such reason is reported (`Host.rekeyReason_eq_find?`). `Mesh.keys_repaired` says what becomes of
all keys of a mesh: which hosts are reported, whose keys are replaced and by what, that the keys of
every host can be used afterwards, and that its peers are given the public one.
-/

namespace TunnelMesh

/-! ## Reasons, each by itself -/

namespace RekeyReason

/-- All reasons, in the order in which they are looked for. -/
def inOrder : List RekeyReason :=
  [.missingPrivateKey, .invalidPrivateKey, .missingPublicKey, .invalidPublicKey, .mismatchedPair]

/-- A reason applies to the keys of a host, whether or not another one applies too. Blanks around
the keys do not count. -/
def applies (draw : Draw) (h : Host) : RekeyReason → Bool
  | .missingPrivateKey => Text.trimmed h.privateKey = ""
  | .invalidPrivateKey => !(PrivateKey.parse (Text.trimmed h.privateKey)).isOk
  | .missingPublicKey => Text.trimmed h.publicKey = ""
  | .invalidPublicKey => !(PublicKey.parse (Text.trimmed h.publicKey)).isOk
  | .mismatchedPair =>
    ¬ KeyPair.Accepts draw (Text.trimmed h.privateKey) (Text.trimmed h.publicKey)

end RekeyReason

/-- The reason for new keys is the first one that applies. -/
theorem Host.rekeyReason_eq_find? (draw : Draw) (h : Host) :
    h.rekeyReason draw = RekeyReason.inOrder.find? (·.applies draw h) := by
  simp only [rekeyReason, Text.nonBlank_eq_shown, Text.shown, RekeyReason.inOrder, List.find?_cons,
    RekeyReason.applies, ← Key.isWellFormed_eq_isOk_private, ← Key.isWellFormed_eq_isOk_public,
    ← KeyPair.agree_eq_true]
  by_cases hk : Text.trimmed h.privateKey = ""
  · simp [hk]
  · cases hwfk : Key.isWellFormed (Text.trimmed h.privateKey) with
    | false => simp [hk, hwfk]
    | true =>
      by_cases hp : Text.trimmed h.publicKey = ""
      · simp [hk, hwfk, hp]
      · cases hwfp : Key.isWellFormed (Text.trimmed h.publicKey) <;>
          cases hagree : KeyPair.agree draw (Text.trimmed h.privateKey)
            (Text.trimmed h.publicKey) <;>
              simp [hk, hwfk, hp, hwfp, hagree]

/-! ## The keys of all hosts -/

/-- The keys of a mesh are those of the hosts, trimmed, where they can be used or the host takes
none, and the drawn ones everywhere else. -/
structure KeysRepaired (draws : Draws) (hosts : List Host) (m : Mesh) : Prop where
  /-- The hosts with new keys are reported in order. -/
  sublist : m.rekeyed.Sublist (hosts.map (·.trimmedName))
  /-- No host is reported twice. -/
  nodup : m.rekeyed.Nodup
  /-- Those hosts are reported that take keys and have none that can be used, each with the first
  reason that applies. -/
  mem_rotations : ∀ r, r ∈ m.rotations ↔ ∃ (i : Nat) (h : Host), hosts[i]? = some h ∧
    h.ignoreDefault = false ∧
      RekeyReason.inOrder.find? (·.applies (draws i) h) = some r.reason ∧
        h.trimmedName = r.hostname
  /-- Both keys of a reported host are new: the private one is drawn, and the public one belongs to
  it. -/
  replaced : ∀ (i : Nat) (h : Host), hosts[i]? = some h → h.trimmedName ∈ m.rekeyed →
    ∃ r, m.topology.hosts[i]? = some r ∧
      r.privateKey = some (PrivateKey.mk (draws i).key).text ∧
        r.publicKey = some (PrivateKey.mk (draws i).key).publicKey.text
  /-- All other hosts keep both keys but for blanks. -/
  kept : ∀ (i : Nat) (h : Host), hosts[i]? = some h → h.trimmedName ∉ m.rekeyed →
    ∃ r, m.topology.hosts[i]? = some r ∧ r.privateKey = h.privateKey.map Text.trim ∧
      r.publicKey = h.publicKey.map Text.trim
  /-- The keys of every host that takes keys are read as keys and accepted: for some draw, and for
  all draws where they are new. -/
  usable : ∀ r ∈ m.topology.hosts, r.ignoreDefault = false →
    ∃ k p, r.privateKey = some k ∧ r.publicKey = some p ∧ (∃ q, PrivateKey.parse k = .ok q) ∧
      (∃ draw, KeyPair.Accepts draw k p) ∧
        (r.hostname ∈ m.rekeyed → ∀ draw, KeyPair.Accepts draw k p)
  /-- Every configuration has an entry for each host, and the entries for hosts that take keys have
  the public key that belongs to the private one. -/
  announced : ∀ name ∈ m.hostnames, ∃ c, m.configFor name = some c ∧
    c.peers.map (·.name) = m.hostnames ∧
      ∀ r ∈ m.topology.hosts, r.ignoreDefault = false → ∀ peer ∈ c.peers, peer.name = r.hostname →
        ∃ k q, r.privateKey = some k ∧ PrivateKey.parse k = .ok q ∧
          peer.publicKey = some q.publicKey.text

namespace Mesh

variable {t : Topology} {d : Defaults} {draws : Draws} {m : Mesh}

/-- The hosts of a topology are told apart by their trimmed names. -/
theorem hostname_inj_of_compile (h : compile t d draws = .ok m) {i j : Nat} {host host' : Host}
    (hi : t.hosts[i]? = some host) (hj : t.hosts[j]? = some host')
    (hname : host.trimmedName = host'.trimmedName) : i = j := by
  obtain ⟨-, -, ⟨-, hnodup, -⟩, -⟩ := compile_eq_ok.1 h
  have hlt : i < (t.hosts.map (·.trimmedName)).length := by
    rw [List.length_map]
    exact (List.getElem?_eq_some_iff.1 hi).1
  refine (List.getElem?_inj hlt hnodup).1 ?_
  rw [List.getElem?_map, List.getElem?_map, hi, hj, Option.map_some, Option.map_some, hname]

/-- The reports of new keys, told from the hosts as they are given. -/
theorem mem_rotations_of_compile (h : compile t d draws = .ok m) {r : Rotation} :
    r ∈ m.rotations ↔ ∃ (i : Nat) (host : Host), t.hosts[i]? = some host ∧
      host.ignoreDefault = false ∧ host.rekeyReason (draws i) = some r.reason ∧
        host.trimmedName = r.hostname := by
  obtain ⟨p, -, -, -, rfl⟩ := compile_eq_ok.1 h
  simp only [mem_rotationsOf, Topology.placedHosts, fillAddresses, List.getElem?_mapIdx,
    List.getElem?_map, Option.map_map, Option.map_eq_some_iff, Function.comp_apply]
  constructor
  · rintro ⟨i, _, ⟨host, hhost, rfl⟩, hignore, hreason, hname⟩
    simp only [Host.ignoreDefault_withAddressAt, Host.rekeyReason_withAddressAt,
      Host.rekeyReason_trimmed, Host.hostname, Host.server_withAddressAt] at hignore hreason hname
    exact ⟨i, host, hhost, hignore, hreason, hname⟩
  · rintro ⟨i, host, hhost, hignore, hreason, hname⟩
    refine ⟨i, _, ⟨host, hhost, rfl⟩, ?_, ?_, ?_⟩
    · rwa [Host.ignoreDefault_withAddressAt]
    · rwa [Host.rekeyReason_withAddressAt, Host.rekeyReason_trimmed]
    · rwa [Host.hostname, Host.server_withAddressAt]

/-- A host is reported just when it takes keys and has none that can be used. -/
theorem mem_rekeyed_iff (h : compile t d draws = .ok m) {i : Nat} {host : Host}
    (hi : t.hosts[i]? = some host) : host.trimmedName ∈ m.rekeyed ↔
      host.ignoreDefault = false ∧ host.rekeyReason (draws i) ≠ none := by
  simp only [rekeyed, List.mem_map, mem_rotations_of_compile h]
  constructor
  · rintro ⟨r, ⟨j, host', hj, hignore, hreason, hname⟩, hr⟩
    obtain rfl := hostname_inj_of_compile h hi hj (hr.symm.trans hname.symm)
    obtain rfl : host = host' := Option.some.inj (hi.symm.trans hj)
    exact ⟨hignore, by rw [hreason]; exact Option.some_ne_none _⟩
  · rintro ⟨hignore, hreason⟩
    obtain ⟨reason, hsome⟩ := Option.ne_none_iff_exists'.1 hreason
    exact ⟨⟨_, reason⟩, ⟨i, host, hi, hignore, hsome, rfl⟩, rfl⟩

/-- A host whose keys cannot be used has new ones after all steps. -/
theorem replaced_of_compile (h : compile t d draws = .ok m) {i : Nat} {host : Host}
    {reason : RekeyReason} (hi : t.hosts[i]? = some host) (hignore : host.ignoreDefault = false)
    (hreason : host.rekeyReason (draws i) = some reason) :
    ∃ r, m.topology.hosts[i]? = some r ∧
      r.privateKey = some (PrivateKey.mk (draws i).key).text ∧
        r.publicKey = some (PrivateKey.mk (draws i).key).publicKey.text := by
  obtain ⟨p, -, -, -, hhosts⟩ := hosts_of_compile h
  refine ⟨_, by rw [hhosts, List.getElem?_mapIdx, hi, Option.map_some], ?_⟩
  have hplaced : (host.trimmed.withAddressAt m.subnet (t.freeAddresses p)
      (waitingBefore m.subnet t.hosts i)).rekeyReason (draws i) = some reason := by simpa
  rw [Host.settled, Host.withUsableKeys_of_rekeyReason (by simpa) hplaced]
  simp [Host.withKeys, KeyPair.fresh, KeyPair.ofPrivate]

/-- A host that takes no keys or has some that can be used has the same keys after all steps. -/
theorem kept_of_compile (h : compile t d draws = .ok m) {i : Nat} {host : Host}
    (hi : t.hosts[i]? = some host)
    (hkept : host.ignoreDefault = true ∨ host.rekeyReason (draws i) = none) :
    ∃ r, m.topology.hosts[i]? = some r ∧ r.privateKey = host.privateKey.map Text.trim ∧
      r.publicKey = host.publicKey.map Text.trim := by
  obtain ⟨p, -, -, -, hhosts⟩ := hosts_of_compile h
  refine ⟨_, by rw [hhosts, List.getElem?_mapIdx, hi, Option.map_some], ?_⟩
  obtain ⟨address, haddress⟩ := Host.exists_withAddressAt_eq m.subnet (t.freeAddresses p)
    (waitingBefore m.subnet t.hosts i) host.trimmed
  rw [Host.settled, Host.withUsableKeys_of_kept (by simpa), Host.privateKey_withDefaults,
    Host.publicKey_withDefaults, haddress]
  exact ⟨rfl, rfl⟩

/-- The host at a position of a compiled mesh, with the one that it comes from. -/
theorem exists_host_of_compile (h : compile t d draws = .ok m) {r : Host}
    (hr : r ∈ m.topology.hosts) : ∃ (i : Nat) (host : Host), m.topology.hosts[i]? = some r ∧
      t.hosts[i]? = some host ∧ r.ignoreDefault = host.ignoreDefault ∧
        r.hostname = host.trimmedName := by
  obtain ⟨i, hi⟩ := List.mem_iff_getElem?.1 hr
  obtain ⟨p, -, -, -, hhosts⟩ := hosts_of_compile h
  have hbefore := hi
  rw [hhosts, List.getElem?_mapIdx, Option.map_eq_some_iff] at hbefore
  obtain ⟨host, hhost, rfl⟩ := hbefore
  refine ⟨i, host, hi, hhost, by simp [Host.trimmed], ?_⟩
  simp [Host.hostname, Host.trimmedName, Host.trimmed]

/-- The keys of a host that takes keys are accepted after all steps, whatever is drawn where they
are new. -/
theorem usable_of_compile (h : compile t d draws = .ok m) {r : Host} (hr : r ∈ m.topology.hosts)
    (hignore : r.ignoreDefault = false) : ∃ k p, r.privateKey = some k ∧ r.publicKey = some p ∧
      (∃ q, PrivateKey.parse k = .ok q) ∧ (∃ draw, KeyPair.Accepts draw k p) ∧
        (r.hostname ∈ m.rekeyed → ∀ draw, KeyPair.Accepts draw k p) := by
  have hsettled := isSettled_of_compile h hr
  obtain ⟨k, p, hk, hp, hreason⟩ := hsettled.exists_keys hignore
  obtain ⟨draw, hkeyed⟩ := hsettled.keyed hignore
  have hagree := (hreason draw).1 hkeyed
  obtain ⟨key, hkey⟩ := Key.isWellFormed_iff.1 (KeyPair.isWellFormed_of_agree hagree).1
  refine ⟨k, p, hk, hp, ⟨⟨key⟩, PrivateKey.parse_eq_ok.2 hkey⟩,
    ⟨draw, KeyPair.agree_eq_true.1 hagree⟩, ?_⟩
  intro hrekeyed probe
  obtain ⟨i, host, hi, hhost, -, hname⟩ := exists_host_of_compile h hr
  rw [hname, mem_rekeyed_iff h hhost] at hrekeyed
  obtain ⟨reason, hsome⟩ := Option.ne_none_iff_exists'.1 hrekeyed.2
  obtain ⟨r', hr', hk', hp'⟩ := replaced_of_compile h hhost hrekeyed.1 hsome
  obtain rfl : r = r' := Option.some.inj (hi.symm.trans hr')
  obtain rfl : k = _ := Option.some.inj (hk.symm.trans hk')
  obtain rfl : p = _ := Option.some.inj (hp.symm.trans hp')
  exact KeyPair.agree_eq_true.1 (KeyPair.agree_fresh (draws i) probe)

/-- The peers of a configuration are given the public key of every host that takes keys. -/
theorem announced_of_compile (h : compile t d draws = .ok m) {r : Host}
    (hr : r ∈ m.topology.hosts) (hignore : r.ignoreDefault = false) (s : Station) {peer : Peer}
    (hpeer : peer ∈ (m.config s).peers) (hname : peer.name = r.hostname) :
    ∃ k q, r.privateKey = some k ∧ PrivateKey.parse k = .ok q ∧
      peer.publicKey = some q.publicKey.text := by
  obtain ⟨k, p, hk, -, ⟨q, hq⟩, -⟩ := usable_of_compile h hr hignore
  refine ⟨k, q, hk, hq, ?_⟩
  rw [peers_config, List.mem_map] at hpeer
  obtain ⟨s', hs', rfl⟩ := hpeer
  rw [← Topology.map_host_stations, List.mem_map] at hr
  obtain ⟨own, hown, rfl⟩ := hr
  obtain rfl : s' = own := station_eq_of_hostname_eq h hs' hown hname
  exact Station.announcedKey_eq_some.2 ⟨k, q, hk, hq, rfl⟩

/-- The hosts with new keys are reported in the order of the topology. -/
theorem rekeyed_sublist (h : compile t d draws = .ok m) :
    m.rekeyed.Sublist (t.hosts.map (·.trimmedName)) := by
  obtain ⟨p, -, -, -, rfl⟩ := compile_eq_ok.1 h
  rw [← t.map_hostname_placedHosts p]
  exact map_hostname_rotationsOf_sublist draws (t.placedHosts p)

/-- All keys of a compiled mesh are repaired, whatever is drawn. -/
theorem keys_repaired (h : compile t d draws = .ok m) : KeysRepaired draws t.hosts m where
  sublist := rekeyed_sublist h
  nodup := by
    obtain ⟨-, -, ⟨-, hnodup, -⟩, -⟩ := compile_eq_ok.1 h
    exact (rekeyed_sublist h).nodup hnodup
  mem_rotations r := by
    simp only [mem_rotations_of_compile h, ← Host.rekeyReason_eq_find?]
  replaced i host hi hrekeyed := by
    obtain ⟨hignore, hreason⟩ := (mem_rekeyed_iff h hi).1 hrekeyed
    obtain ⟨reason, hsome⟩ := Option.ne_none_iff_exists'.1 hreason
    exact replaced_of_compile h hi hignore hsome
  kept i host hi hnot := by
    rw [mem_rekeyed_iff h hi, not_and_not_right] at hnot
    refine kept_of_compile h hi ?_
    cases hignore : host.ignoreDefault with
    | true => exact .inl rfl
    | false => exact .inr (hnot hignore)
  usable r hr hignore := usable_of_compile h hr hignore
  announced name hname := by
    obtain ⟨s, hs, rfl⟩ := List.mem_map.1 hname
    refine ⟨m.config s, configFor_hostname h hs, ?_, fun r hr hignore peer hpeer hpeerName =>
      announced_of_compile h hr hignore s hpeer hpeerName⟩
    rw [peers_config, List.map_map]
    rfl

/-- In a mesh of four hosts without keys, the first and the last one are reported. -/
theorem keys_repaired_mixedMesh : ∃ m, compile mixedMesh {} (Draw.expand []) = .ok m ∧
    ⟨"a1", .missingPrivateKey⟩ ∈ m.rotations ∧ ⟨"b2", .missingPrivateKey⟩ ∈ m.rotations ∧
      KeysRepaired (Draw.expand []) mixedMesh.hosts m := by
  obtain ⟨m, hm⟩ := exists_compile_mixedMesh none (Draw.expand [])
  have hrepaired := keys_repaired hm
  refine ⟨m, hm, (hrepaired.mem_rotations _).2 ⟨0, _, rfl, rfl, rfl, ?_⟩,
    (hrepaired.mem_rotations _).2 ⟨3, _, rfl, rfl, rfl, ?_⟩, hrepaired⟩
  · decide +kernel
  · decide +kernel

end Mesh

end TunnelMesh
