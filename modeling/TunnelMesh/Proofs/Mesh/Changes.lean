import Mathlib
import TunnelMesh.Proofs.Mesh.Defaults
import TunnelMesh.Proofs.Mesh.Keys

/-!
# What resolving a topology may change

A mesh has the groups of its topology, and each host stands where it stood. What may differ is said
setting by setting (`Mesh.compile_changesOnly`): a host that ignores the defaults is only trimmed,
and any other one gets an address and keys, and the defaults of the settings that it leaves open.
What counts as open is not the same for all settings: a number is open where it is absent, a text
also where it is blank, and a list where all its entries are blank.
-/

namespace TunnelMesh

/-! ## Taking a setting over -/

/-- A setting is the default's just under a condition, and the own one otherwise. -/
structure TakesOver {α : Type} (condition : Prop) (own default_ result : α) : Prop where
  taken : condition → result = default_
  kept : ¬ condition → result = own

/-- A number is taken over where there is none. -/
theorem takesOver_or {α : Type} (own default_ : Option α) :
    TakesOver (own = none) own default_ (own.or default_) := by
  cases own with
  | none => exact ⟨fun _ => rfl, fun hne => absurd rfl hne⟩
  | some a => exact ⟨fun heq => absurd heq (Option.some_ne_none a), fun _ => rfl⟩

/-- A text is taken over where it is blank and the default is not. -/
theorem takesOver_orDefault (own default_ : Option String) :
    TakesOver (Text.IsOpen own ∧ ¬ Text.IsOpen default_) own default_
      (orDefault own default_) := by
  rw [orDefault_eq]
  exact ⟨fun hopen => if_pos hopen, fun hset => if_neg hset⟩

/-- A list is the default's just where all its entries are blank and the default has entries, and
the own one otherwise. -/
def TakesOverList (own default_ result : List String) : Prop :=
  TakesOver ((∀ entry ∈ own, Text.trim entry = "") ∧ default_ ≠ []) own default_ result

/-- A list that is filled from the defaults takes over what there is to take over. -/
theorem takesOverList_orDefaultList (own default_ : List String) :
    TakesOverList own default_ (orDefaultList own default_) := by
  simp only [TakesOverList, Text.trim_eq_empty]
  rw [ orDefaultList, ← List.all_eq_true, ne_eq, ← List.isEmpty_iff, Bool.not_eq_true,
    ← Bool.not_eq_true', ← Bool.and_eq_true]
  exact ⟨fun hopen => if_pos hopen, fun hset => if_neg hset⟩

/-! ## One host -/

namespace Host

/-- A host that takes the defaults has been trimmed, and its settings have been taken from the
defaults where they were open. Nothing is said of its address and its keys. -/
structure FilledFrom (d : Defaults) (h r : Host) : Prop where
  server : r.server = {
    hostname := Text.trim h.server.hostname
    publicAddress := h.server.publicAddress.map Text.trim
    privateAddress := h.server.privateAddress.map Text.trim }
  ignoreDefault : r.ignoreDefault = false
  listenPort : TakesOver (h.listenPort = none) h.listenPort d.listenPort r.listenPort
  mtu : TakesOver (h.mtu = none) h.mtu d.mtu r.mtu
  table : TakesOver (Text.IsOpen h.table ∧ ¬ Text.IsOpen d.table) (h.table.map Text.trim) d.table
    r.table
  dns : TakesOverList h.dns d.dns r.dns
  preUp : TakesOverList h.preUp d.preUp r.preUp
  postUp : TakesOverList h.postUp d.postUp r.postUp
  preDown : TakesOverList h.preDown d.preDown r.preDown
  postDown : TakesOverList h.postDown d.postDown r.postDown

/-- What becomes of a host. -/
structure ResolvesTo (d : Defaults) (h r : Host) : Prop where
  /-- A host that ignores the defaults is the same but for blanks. -/
  ignoring : h.ignoreDefault = true → r = { h with
    server := {
      hostname := Text.trim h.server.hostname
      publicAddress := h.server.publicAddress.map Text.trim
      privateAddress := h.server.privateAddress.map Text.trim }
    address := h.address.map Text.trim
    publicKey := h.publicKey.map Text.trim
    privateKey := h.privateKey.map Text.trim
    table := h.table.map Text.trim }
  filled : h.ignoreDefault = false → FilledFrom d h r

/-- The defaults are filled in beside any address and any keys. -/
theorem filledFrom_withDefaults {h : Host} (hignore : h.ignoreDefault = false) (d : Defaults)
    (address publicKey privateKey : Option String) :
    FilledFrom d h ({ h.trimmed with
      address := address, publicKey := publicKey, privateKey := privateKey }.withDefaults d) := by
  have htrimmed : h.trimmed.ignoreDefault = false := hignore
  have htable := takesOver_orDefault (h.table.map Text.trim) d.table
  rw [Text.isOpen_map_trim] at htable
  rw [withDefaults, if_neg (by simp [htrimmed])]
  exact {
    server := rfl
    ignoreDefault := hignore
    listenPort := takesOver_or ..
    mtu := takesOver_or ..
    table := htable
    dns := takesOverList_orDefaultList ..
    preUp := takesOverList_orDefaultList ..
    postUp := takesOverList_orDefaultList ..
    preDown := takesOverList_orDefaultList ..
    postDown := takesOverList_orDefaultList .. }

/-- What all steps make of a host, wherever it stands. -/
theorem resolvesTo_settled (d : Defaults) (draw : Draw) (s : Subnet) (free : List Ipv4) (n : Nat)
    (h : Host) : ResolvesTo d h ((h.trimmed.withAddressAt s free n).settled d draw) where
  ignoring := by
    intro hignore
    have hstays : h.trimmed.awaitsAddress s = false := awaitsAddress_eq_false.2 (.inl hignore)
    have hkept : h.trimmed.withUsableKeys draw = (h.trimmed, none) :=
      withUsableKeys_of_kept (.inl hignore)
    rw [withAddressAt_of_not_awaits hstays, settled, hkept, withDefaults]
    exact if_pos hignore
  filled := by
    intro hignore
    obtain ⟨address, haddress⟩ := exists_withAddressAt_eq s free n h.trimmed
    obtain ⟨publicKey, privateKey, hkeys⟩ :=
      (h.trimmed.withAddressAt s free n).exists_fst_withUsableKeys draw
    rw [settled, hkeys, haddress]
    exact filledFrom_withDefaults hignore d address publicKey privateKey

end Host

/-! ## All hosts -/

/-- Where hosts are replaced in order, the groups stay, and their hosts are replaced in order. -/
theorem Topology.forall₂_refill {R : Host → Host → Prop} (gs : List Group) {hs : List Host}
    (h : List.Forall₂ R (gs.flatMap (·.hosts)) hs) :
    List.Forall₂ (fun g g' => g'.name = g.name ∧ g'.visibility = g.visibility ∧
      List.Forall₂ R g.hosts g'.hosts) gs (refill gs hs) := by
  induction gs generalizing hs with
  | nil => exact .nil
  | cons g gs ih =>
    rw [List.flatMap_cons] at h
    have hfirst := List.forall₂_take g.hosts.length h
    have hrest := List.forall₂_drop g.hosts.length h
    rw [List.take_left] at hfirst
    rw [List.drop_left] at hrest
    exact .cons ⟨rfl, rfl, hfirst⟩ (ih hrest)

/-- A topology is another one but for what resolving may change. -/
structure Topology.ChangesOnly (d : Defaults) (t r : Topology) : Prop where
  name : r.name = t.name
  address : TakesOver (Text.IsOpen t.address ∧ ¬ Text.IsOpen d.address) t.address d.address
    r.address
  netmask : TakesOver (Text.IsOpen t.netmask ∧ ¬ Text.IsOpen d.netmask) t.netmask d.netmask
    r.netmask
  /-- The groups and their hosts are in the same order. -/
  groups : List.Forall₂ (fun g g' => g'.name = g.name ∧ g'.visibility = g.visibility ∧
    List.Forall₂ (Host.ResolvesTo d) g.hosts g'.hosts) t.groups r.groups

namespace Mesh

variable {t : Topology} {d : Defaults} {draws : Draws} {m : Mesh}

/-- The hosts of a compiled mesh are what all steps make of the hosts of the topology. -/
theorem forall₂_resolvesTo (h : compile t d draws = .ok m) :
    List.Forall₂ (Host.ResolvesTo d) t.hosts m.topology.hosts := by
  obtain ⟨p, -, -, -, hhosts⟩ := hosts_of_compile h
  rw [hhosts, List.forall₂_iff_get]
  refine ⟨List.length_mapIdx.symm, fun i hi hi' => ?_⟩
  simp only [List.get_eq_getElem, List.getElem_mapIdx]
  exact Host.resolvesTo_settled ..

/-- Resolving a topology changes nothing but what is open. -/
theorem compile_changesOnly (h : compile t d draws = .ok m) :
    Topology.ChangesOnly d t m.topology := by
  have hhosts := forall₂_resolvesTo h
  have htopology : m.topology = (t.withDefaultSubnet d).withHosts m.topology.hosts := by
    obtain ⟨p, -, -, -, rfl⟩ := compile_eq_ok.1 h
    rw [Topology.hosts_withHosts _ _ (by simp)]
  generalize m.topology.hosts = hs at hhosts htopology
  rw [htopology]
  exact {
    name := rfl
    address := takesOver_orDefault ..
    netmask := takesOver_orDefault ..
    groups := Topology.forall₂_refill t.groups hhosts }

/-- A mesh of four hosts and a table of the defaults with blanks around it. -/
theorem compile_changesOnly_mixedMesh : ∃ m,
    compile mixedMesh { table := some " off " } (Draw.expand []) = .ok m ∧
      Topology.ChangesOnly { table := some " off " } mixedMesh m.topology := by
  obtain ⟨m, hm⟩ := exists_compile_mixedMesh (some " off ") (Draw.expand [])
  exact ⟨m, hm, compile_changesOnly hm⟩

end Mesh

end TunnelMesh
