import Mathlib
import TunnelMesh.Proofs.Mesh.Defaults
import TunnelMesh.Proofs.Mesh.Keys
import TunnelMesh.Proofs.Mesh.Resolution

/-!
# Compiling a resolved topology again

A resolved host is settled (`Host.IsSettled`): it is trimmed up to its table, waits for no address,
has keys that agree and takes nothing more from the defaults. The steps trim such a host and do
nothing else to it, unless the probe of its keys fails this time (`Host.IsSettled.settled_trimmed`).
So a resolved topology is always compiled again, and `Mesh.recompile_eq_iff` says when the second
mesh is the first: the table of the defaults has no blanks at its ends wherever it was taken over,
and every pair of keys that is not a true pair but was accepted once is accepted again.
-/

namespace TunnelMesh

namespace Host

/-! ## Trimmed hosts -/

/-- Blanks are cut off from all settings of a single line but the table, which may come from the
defaults as it is given there. -/
structure IsTrimmed (h : Host) : Prop where
  hostname : Text.trim h.server.hostname = h.server.hostname
  publicAddress : h.server.publicAddress.map Text.trim = h.server.publicAddress
  privateAddress : h.server.privateAddress.map Text.trim = h.server.privateAddress
  address : h.address.map Text.trim = h.address
  publicKey : h.publicKey.map Text.trim = h.publicKey
  privateKey : h.privateKey.map Text.trim = h.privateKey

/-- What trimming leaves of a host is trimmed. -/
theorem isTrimmed_trimmed (h : Host) : h.trimmed.IsTrimmed where
  hostname := Text.trim_trim _
  publicAddress := Text.map_trim_map_trim _
  privateAddress := Text.map_trim_map_trim _
  address := Text.map_trim_map_trim _
  publicKey := Text.map_trim_map_trim _
  privateKey := Text.map_trim_map_trim _

namespace IsTrimmed

variable {h : Host}

/-- Trimming such a host again changes its table at most. -/
theorem trimmed_eq (ht : h.IsTrimmed) : h.trimmed = { h with table := h.table.map Text.trim } := by
  rw [trimmed, ht.hostname, ht.publicAddress, ht.privateAddress, ht.address, ht.publicKey,
    ht.privateKey]

/-- Trimming such a host again changes nothing just when it does not change its table. -/
theorem trimmed_eq_self_iff (ht : h.IsTrimmed) :
    h.trimmed = h ↔ h.table.map Text.trim = h.table := by
  rw [ht.trimmed_eq]
  exact ⟨fun heq => congrArg Host.table heq, fun heq => by rw [heq]⟩

/-- An address that is given to a host has no blanks. -/
theorem withAddressAt (ht : h.IsTrimmed) (s : Subnet) (free : List Ipv4) (position : Nat) :
    (h.withAddressAt s free position).IsTrimmed := by
  rw [Host.withAddressAt]
  split
  · refine { ht with address := ?_ }
    cases free[position]? <;> simp [Ipv4.trim_text]
  · exact ht

/-- Keys that are given to a host have no blanks. -/
theorem withUsableKeys (ht : h.IsTrimmed) (draw : Draw) : (h.withUsableKeys draw).1.IsTrimmed := by
  have htext : ∀ key : Octets 32, (some (Base64.encode key.val)).map Text.trim =
      some (Base64.encode key.val) := fun key => congrArg some (Base64.trim_encode key.val)
  rw [Host.withUsableKeys]
  split
  · exact ht
  · split
    · exact ht
    · exact { ht with publicKey := htext _, privateKey := htext _ }

/-- Defaults leave what is trimmed as it is. -/
theorem withDefaults (ht : h.IsTrimmed) (d : Defaults) : (h.withDefaults d).IsTrimmed := by
  rw [Host.withDefaults]
  split
  · exact ht
  · exact { ht with }

end IsTrimmed

/-! ## Settled hosts -/

/-- No step of the resolution but trimming has anything to do for a host. -/
structure IsSettled (s : Subnet) (d : Defaults) (h : Host) : Prop where
  isTrimmed : h.IsTrimmed
  placed : h.awaitsAddress s = false
  /-- The keys were accepted at least once. -/
  keyed : h.ignoreDefault = false → ∃ draw, h.rekeyReason draw = none
  filled : h.withDefaults d = h

/-- The steps for a single host settle a trimmed host that has been placed. -/
theorem isSettled_settled {s : Subnet} {h : Host} (ht : h.IsTrimmed)
    (hplaced : h.awaitsAddress s = false) (d : Defaults) (draw : Draw) :
    (h.settled d draw).IsSettled s d where
  isTrimmed := (ht.withUsableKeys draw).withDefaults d
  placed := by
    rwa [awaitsAddress_congr (h.ignoreDefault_settled d draw) (h.address_settled d draw)]
  keyed := by
    intro hignore
    rw [ignoreDefault_settled] at hignore
    refine ⟨draw, ?_⟩
    rw [settled, rekeyReason_withDefaults, rekeyReason_fst_withUsableKeys hignore]
  filled := by rw [settled, withDefaults_withDefaults]

namespace IsSettled

variable {s : Subnet} {d : Defaults} {h : Host}

/-- The keys of a settled host are shown as they are. -/
theorem exists_keys (hs : h.IsSettled s d) (hignore : h.ignoreDefault = false) :
    ∃ k p, h.privateKey = some k ∧ h.publicKey = some p ∧
      ∀ draw, h.rekeyReason draw = none ↔ KeyPair.agree draw k p = true := by
  obtain ⟨draw, hnone⟩ := hs.keyed hignore
  obtain ⟨k, p, hk, hp, -⟩ := rekeyReason_eq_none.1 hnone
  have hprivate : h.privateKey = some k := by
    obtain ⟨k', hk', -, rfl⟩ := Text.nonBlank_eq_some.1 hk
    rw [← hs.isTrimmed.privateKey, hk', Option.map_some]
  have hpublic : h.publicKey = some p := by
    obtain ⟨p', hp', -, rfl⟩ := Text.nonBlank_eq_some.1 hp
    rw [← hs.isTrimmed.publicKey, hp', Option.map_some]
  refine ⟨k, p, hprivate, hpublic, fun draw => ?_⟩
  rw [rekeyReason_eq_none, hk, hp]
  simp

/-- A settled host takes no table from the defaults. -/
theorem orDefault_table (hs : h.IsSettled s d) (hignore : h.ignoreDefault = false) :
    orDefault h.table d.table = h.table := by
  have htable := congrArg Host.table hs.filled
  rwa [withDefaults, if_neg (by simp [hignore])] at htable

/-- The steps for a single host do no more to a settled host than to trim it, if its keys are
accepted. -/
theorem settled_trimmed (hs : h.IsSettled s d) {draw : Draw}
    (hkept : h.ignoreDefault = true ∨ h.rekeyReason draw = none) :
    h.trimmed.settled d draw = h.trimmed := by
  rw [settled, withUsableKeys_of_kept (by rwa [rekeyReason_trimmed, trimmed])]
  cases hignore : h.ignoreDefault with
  | true => rw [withDefaults, if_pos (by rwa [trimmed])]
  | false =>
    rw [hs.isTrimmed.trimmed_eq, withDefaults_table hignore, hs.filled,
      orDefault_map_trim (hs.orDefault_table hignore)]

end IsSettled

/-- The table of a host after all steps. -/
theorem table_settled (d : Defaults) (draw : Draw) (h : Host) : (h.settled d draw).table =
    if h.ignoreDefault then h.table else orDefault h.table d.table := by
  obtain ⟨publicKey, privateKey, hkeys⟩ := h.exists_fst_withUsableKeys draw
  rw [settled, hkeys, withDefaults]
  split <;> rfl

end Host

/-! ## The second run -/

namespace Mesh

variable {t : Topology} {d : Defaults} {draws : Draws} {m : Mesh}

/-- All hosts of a compiled mesh are settled. -/
theorem isSettled_of_compile (h : compile t d draws = .ok m) {host : Host}
    (hhost : host ∈ m.topology.hosts) : host.IsSettled m.subnet d := by
  obtain ⟨i, hi⟩ := List.mem_iff_getElem?.1 hhost
  obtain ⟨p, hp, hsub, hle, hhosts⟩ := hosts_of_compile h
  rw [hhosts, List.getElem?_mapIdx, Option.map_eq_some_iff] at hi
  obtain ⟨before, hbefore, rfl⟩ := hi
  refine Host.isSettled_settled (before.isTrimmed_trimmed.withAddressAt _ _ _) ?_ d (draws i)
  refine Host.awaitsAddress_withAddressAt (fun a ha => ?_) fun hwaits => ?_
  · rw [← hsub]
    exact ((Topology.mem_freeAddresses (Topology.claimed_pool hp)).1 ha).1
  · rw [Host.awaitsAddress_trimmed] at hwaits
    exact waitingBefore_lt_of_countP_le hle hbefore hwaits

/-- A resolved topology is compiled again, and each host goes through the steps for a single host
once more. -/
theorem exists_recompile (h : compile t d draws = .ok m) (draws' : Draws) :
    ∃ m', compile m.topology d draws' = .ok m' ∧
      m'.topology = m.topology.withHosts
        (m.topology.hosts.mapIdx fun i host => host.trimmed.settled d (draws' i)) ∧
      m'.rotations = rotationsOf draws' (m.topology.hosts.map Host.trimmed) ∧
      m'.persistentKeepalive = m.persistentKeepalive := by
  obtain ⟨p, hp, hfit, hle, hm⟩ := compile_eq_ok.1 h
  have hsub : p.subnet = m.subnet := by rw [hm]
  have hagain : m.topology.withDefaultSubnet d = m.topology := by
    have hsubnet := t.withDefaultSubnet_withDefaultSubnet d
    rw [hm]
    exact congrArg (Topology.withHosts · _) hsubnet
  have hpool : (m.topology.withDefaultSubnet d).pool = .ok p := by
    rw [hagain, ← hp, hm]
    rfl
  have hstay : ∀ host ∈ m.topology.hosts, host.awaitsAddress p.subnet = false := fun host hhost =>
    hsub ▸ (isSettled_of_compile h hhost).placed
  have hnames : m.topology.hosts.map (·.trimmedName) = t.hosts.map (·.trimmedName) := by
    have htwice : (fun host : Host => host.trimmedName) = Text.trim ∘ Host.hostname := rfl
    have honce := hostnames_of_compile h
    rw [htwice] at honce ⊢
    rw [← List.map_map, honce, List.map_map, ← Function.comp_assoc, Text.trim_comp_trim]
  have hplaced : m.topology.placedHosts p = m.topology.hosts.map Host.trimmed :=
    fillAddresses_of_not_awaits _ fun host hhost => by
      obtain ⟨before, hbefore, rfl⟩ := List.mem_map.1 hhost
      rw [Host.awaitsAddress_trimmed, hstay before hbefore]
  have hcount : m.topology.hosts.countP (·.awaitsAddress p.subnet) ≤
      (m.topology.freeAddresses p).length := by
    rw [List.countP_eq_zero.2 fun host hhost => by simp [hstay host hhost]]
    exact Nat.zero_le _
  refine ⟨_, compile_eq_ok.2 ⟨p, hpool, hnames ▸ hfit, hcount, rfl⟩, ?_, ?_, ?_⟩
  · rw [hagain, hplaced, List.mapIdx_map]
  · rw [hplaced]
  · rw [hm]

/-- The table that a host has in a compiled mesh. -/
def resolvedTable (d : Defaults) (host : Host) : Option String :=
  if host.ignoreDefault then host.table.map Text.trim
  else orDefault (host.table.map Text.trim) d.table

/-- The tables of a compiled mesh are those that the hosts and the defaults resolve to. -/
theorem tables_of_compile (h : compile t d draws = .ok m) :
    m.topology.hosts.map (·.table) = t.hosts.map (resolvedTable d) := by
  obtain ⟨p, -, -, -, hhosts⟩ := hosts_of_compile h
  rw [hhosts, List.map_mapIdx, ← List.mapIdx_eq_map]
  simp only [Host.table_settled, Host.ignoreDefault_withAddressAt, Host.table_withAddressAt]
  rfl

/-- The tables of a compiled mesh have no blanks at their ends unless one of them was taken over
with such blanks. -/
theorem tables_trimmed_iff (h : compile t d draws = .ok m) :
    (∀ host ∈ m.topology.hosts, host.table.map Text.trim = host.table) ↔
      ∀ host ∈ t.hosts, host.ignoreDefault = false → Text.IsOpen host.table →
        ¬ Text.IsOpen d.table → d.table.map Text.trim = d.table := by
  have hone : ∀ host : Host, (resolvedTable d host).map Text.trim = resolvedTable d host ↔
      (host.ignoreDefault = false → Text.IsOpen host.table →
        ¬ Text.IsOpen d.table → d.table.map Text.trim = d.table) := by
    intro host
    rw [resolvedTable]
    cases hignore : host.ignoreDefault <;> simp [map_trim_orDefault_map_trim]
  calc (∀ host ∈ m.topology.hosts, host.table.map Text.trim = host.table)
      ↔ ∀ table ∈ m.topology.hosts.map (·.table), table.map Text.trim = table := by
        rw [List.forall_mem_map]
    _ ↔ ∀ host ∈ t.hosts, (resolvedTable d host).map Text.trim = resolvedTable d host := by
        rw [tables_of_compile h, List.forall_mem_map]
    _ ↔ _ := forall₂_congr fun host _ => hone host

/-- A second run trims the tables of the first one. -/
theorem tables_recompiled {m' : Mesh} {draws' : Draws} (h : compile t d draws = .ok m)
    (h' : compile m.topology d draws' = .ok m') :
    m'.topology.hosts.map (·.table) =
      (m.topology.hosts.map (·.table)).map (Option.map Text.trim) := by
  rw [tables_of_compile h', List.map_map]
  refine List.map_congr_left fun host hhost => ?_
  rw [resolvedTable, Function.comp_apply]
  split
  · rfl
  · next hignore =>
    rw [Bool.not_eq_true] at hignore
    exact orDefault_map_trim ((isSettled_of_compile h hhost).orDefault_table hignore)

/-- The keys of all hosts are accepted a second time just when those are that do not denote one
point. -/
theorem keys_kept_iff (h : compile t d draws = .ok m) (draws' : Draws) :
    (∀ (i : Nat) (host : Host), m.topology.hosts[i]? = some host →
      host.ignoreDefault = true ∨ host.rekeyReason (draws' i) = none) ↔
        ∀ (i : Nat) (host : Host) (k p : String), m.topology.hosts[i]? = some host →
          host.ignoreDefault = false → host.privateKey = some k → host.publicKey = some p →
            KeyPair.denoteOnePoint k p = false → KeyPair.agree (draws' i) k p = true := by
  constructor
  · intro hall i host k p hi hignore hk hp _
    obtain ⟨k', p', hk', hp', hreason⟩ :=
      (isSettled_of_compile h (List.mem_of_getElem? hi)).exists_keys hignore
    obtain rfl : k = k' := Option.some.inj (hk.symm.trans hk')
    obtain rfl : p = p' := Option.some.inj (hp.symm.trans hp')
    exact (hreason _).1 ((hall i host hi).resolve_left (by simp [hignore]))
  · intro hall i host hi
    cases hignore : host.ignoreDefault with
    | true => exact .inl rfl
    | false =>
      obtain ⟨k, p, hk, hp, hreason⟩ :=
        (isSettled_of_compile h (List.mem_of_getElem? hi)).exists_keys hignore
      refine .inr ((hreason _).2 ?_)
      cases hpoint : KeyPair.denoteOnePoint k p with
      | true => exact KeyPair.agree_of_denoteOnePoint hpoint (draws' i)
      | false => exact hall i host k p hi hignore hk hp hpoint

/-- Trimming all hosts once more changes nothing just when their tables are trimmed. -/
theorem withHosts_trimmed_eq_self_iff (h : compile t d draws = .ok m) :
    m.topology.withHosts (m.topology.hosts.map Host.trimmed) = m.topology ↔
      ∀ host ∈ m.topology.hosts, host.table.map Text.trim = host.table := by
  have htables : m.topology.hosts.map Host.trimmed = m.topology.hosts ↔
      ∀ host ∈ m.topology.hosts, host.table.map Text.trim = host.table := by
    nth_rewrite 2 [← List.map_id m.topology.hosts]
    rw [List.map_inj_left]
    exact forall₂_congr fun host hhost =>
      (isSettled_of_compile h hhost).isTrimmed.trimmed_eq_self_iff
  rw [← htables]
  refine ⟨fun heq => ?_, fun heq => by rw [heq, Topology.withHosts_hosts]⟩
  rw [← Topology.hosts_withHosts m.topology (m.topology.hosts.map Host.trimmed)
    (List.length_map _), heq]

/-- When the second mesh is the first: the table of the defaults has no blanks at its ends where a
host took it over, and keys that do not denote one point but were accepted are accepted again. -/
theorem recompile_eq_iff (h : compile t d draws = .ok m) (draws' : Draws) :
    ∃ m', compile m.topology d draws' = .ok m' ∧
      ((m'.rotations = [] ∧ m'.topology = m.topology ∧ m'.configs = m.configs) ↔
        (∀ host ∈ t.hosts, host.ignoreDefault = false → Text.IsOpen host.table →
          ¬ Text.IsOpen d.table → d.table.map Text.trim = d.table) ∧
        ∀ (i : Nat) (host : Host) (k p : String), m.topology.hosts[i]? = some host →
          host.ignoreDefault = false → host.privateKey = some k → host.publicKey = some p →
            KeyPair.denoteOnePoint k p = false → KeyPair.agree (draws' i) k p = true) := by
  obtain ⟨m', hm', htopology, hrotations, hkeepalive⟩ := exists_recompile h draws'
  refine ⟨m', hm', ?_⟩
  have hkept : m'.rotations = [] ↔ ∀ (i : Nat) (host : Host), m.topology.hosts[i]? = some host →
      host.ignoreDefault = true ∨ host.rekeyReason (draws' i) = none := by
    rw [hrotations, rotationsOf_eq_nil]
    simp only [List.getElem?_map, Option.map_eq_some_iff, forall_exists_index, and_imp,
      forall_apply_eq_imp_iff₂, Host.rekeyReason_trimmed]
    rfl
  -- where no keys are replaced, all that the second run does is to trim the hosts
  have htrim : m'.rotations = [] → m'.topology = m.topology.withHosts
      (m.topology.hosts.map Host.trimmed) := by
    intro hnone
    rw [htopology]
    refine congrArg m.topology.withHosts (List.ext_getElem? fun i => ?_)
    rw [List.getElem?_mapIdx, List.getElem?_map]
    cases hi : m.topology.hosts[i]? with
    | none => rfl
    | some host =>
      exact congrArg some ((isSettled_of_compile h (List.mem_of_getElem? hi)).settled_trimmed
        (hkept.1 hnone i host hi))
  rw [← keys_kept_iff h, ← hkept, ← tables_trimmed_iff h, ← withHosts_trimmed_eq_self_iff h]
  constructor
  · rintro ⟨hnone, htop, -⟩
    exact ⟨htrim hnone ▸ htop, hnone⟩
  · rintro ⟨htop, hnone⟩
    rw [← htrim hnone] at htop
    refine ⟨hnone, htop, ?_⟩
    have hviews : m'.stations = m.stations := congrArg Topology.stations htop
    simp only [configs, configWith, announced, hviews, htop, hkeepalive]

/-! ## A table with blanks -/

/-- The second mesh is not the first where the table of the defaults has blanks around it. -/
theorem recompile_eq_iff_mixedMesh : ∃ m m',
    compile mixedMesh { table := some " off " } (Draw.expand []) = .ok m ∧
      compile m.topology { table := some " off " } (Draw.expand []) = .ok m' ∧
        ¬ (m'.rotations = [] ∧ m'.topology = m.topology ∧ m'.configs = m.configs) := by
  obtain ⟨m, hm⟩ := exists_compile_mixedMesh (some " off ") (Draw.expand [])
  obtain ⟨m', hm', hiff⟩ := recompile_eq_iff hm (Draw.expand [])
  refine ⟨m, m', hm, hm', fun hsame => ?_⟩
  exact absurd (hiff.1 hsame).1 (by decide +kernel)

/-- Blanks that come with the table of the defaults are kept by the first run and cut off by the
second one, whatever is drawn. -/
theorem recompile_trims_default_table : ∃ m,
    compile mixedMesh { table := some " off " } (Draw.expand []) = .ok m ∧
      m.topology.hosts.map (·.table) = [some " off ", some " off ", none, some " off "] ∧
        ∀ draws', ∃ m', compile m.topology { table := some " off " } draws' = .ok m' ∧
          m'.topology.hosts.map (·.table) = [some "off", some "off", none, some "off"] ∧
            m'.topology ≠ m.topology := by
  obtain ⟨m, hm⟩ := exists_compile_mixedMesh (some " off ") (Draw.expand [])
  have hfirst : m.topology.hosts.map (·.table) =
      [some " off ", some " off ", none, some " off "] :=
    (tables_of_compile hm).trans (by decide +kernel)
  refine ⟨m, hm, hfirst, fun draws' => ?_⟩
  obtain ⟨m', hm', -⟩ := exists_recompile hm draws'
  have hsecond : m'.topology.hosts.map (·.table) = [some "off", some "off", none, some "off"] :=
    (tables_recompiled hm hm').trans (by rw [hfirst]; decide +kernel)
  refine ⟨m', hm', hsecond, fun hsame => ?_⟩
  rw [hsame, hfirst] at hsecond
  exact absurd hsecond (by decide +kernel)

end Mesh

end TunnelMesh
