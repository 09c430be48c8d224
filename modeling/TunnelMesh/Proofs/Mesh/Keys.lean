import Mathlib
import TunnelMesh.Proofs.Key
import TunnelMesh.Proofs.Mesh.Resolution

/-!
# Keys that need not be replaced

A host keeps its keys just when both are set and agree (`Host.rekeyReason_eq_none`), and the keys
that it is given instead are kept from then on, whatever is drawn (`Host.rekeyReason_fresh`). Of a
list of hosts those are reported that are given new keys (`mem_rotationsOf`).
-/

namespace TunnelMesh

namespace Host

/-- A host keeps its keys just when both are set and agree. -/
theorem rekeyReason_eq_none {draw : Draw} {h : Host} : h.rekeyReason draw = none ↔
    ∃ k p, Text.nonBlank h.privateKey = some k ∧ Text.nonBlank h.publicKey = some p ∧
      KeyPair.agree draw k p = true := by
  rw [rekeyReason]
  cases hk : Text.nonBlank h.privateKey with
  | none => simp
  | some k =>
    cases hp : Text.nonBlank h.publicKey with
    | none => cases hwf : Key.isWellFormed k <;> simp [hwf]
    | some p =>
      cases hagree : KeyPair.agree draw k p with
      | true =>
        obtain ⟨hwfk, hwfp⟩ := KeyPair.isWellFormed_of_agree hagree
        simp [hwfk, hwfp, hagree]
      | false =>
        cases hwfk : Key.isWellFormed k <;> cases hwfp : Key.isWellFormed p <;>
          simp [hwfk, hwfp, hagree]

/-- The keys that a host is given are kept, whatever is drawn to probe them. -/
theorem rekeyReason_fresh (draw probe : Draw) (h : Host) :
    (h.withKeys (KeyPair.fresh draw)).rekeyReason probe = none :=
  rekeyReason_eq_none.2 ⟨_, _, Key.nonBlank_encode _, Key.nonBlank_encode _,
    KeyPair.agree_fresh draw probe⟩

/-- Trimming does not count where keys are looked at. -/
@[simp] theorem rekeyReason_trimmed (draw : Draw) (h : Host) :
    h.trimmed.rekeyReason draw = h.rekeyReason draw := by
  simp only [rekeyReason, trimmed, Text.nonBlank_map_trim]

/-- Addresses do not count where keys are looked at. -/
@[simp] theorem rekeyReason_withAddressAt (s : Subnet) (free : List Ipv4) (n : Nat) (draw : Draw)
    (h : Host) : (h.withAddressAt s free n).rekeyReason draw = h.rekeyReason draw := by
  obtain ⟨address, heq⟩ := exists_withAddressAt_eq s free n h
  rw [heq]
  rfl

/-- What is drawn counts only for the probe of a pair of keys. -/
theorem rekeyReason_congr {draw draw' : Draw} {h : Host}
    (hagree : ∀ k p, h.privateKey = some k → h.publicKey = some p →
      KeyPair.agree draw k p = KeyPair.agree draw' k p) :
    h.rekeyReason draw = h.rekeyReason draw' := by
  rw [rekeyReason, rekeyReason]
  cases hk : Text.nonBlank h.privateKey with
  | none => rfl
  | some k =>
    cases hp : Text.nonBlank h.publicKey with
    | none => rfl
    | some p =>
      obtain ⟨k, hprivate, -, rfl⟩ := Text.nonBlank_eq_some.1 hk
      obtain ⟨p, hpublic, -, rfl⟩ := Text.nonBlank_eq_some.1 hp
      simp only [KeyPair.agree_trim, hagree k p hprivate hpublic]

/-- A host whose keys are kept is left as it is. -/
theorem withUsableKeys_of_kept {draw : Draw} {h : Host}
    (hkept : h.ignoreDefault = true ∨ h.rekeyReason draw = none) :
    h.withUsableKeys draw = (h, none) := by
  rw [withUsableKeys]
  rcases hkept with hignore | hnone
  · rw [if_pos hignore]
  · split
    · rfl
    · rw [hnone]

/-- A host whose keys are not kept has those of the drawn pair. -/
theorem withUsableKeys_of_rekeyReason {draw : Draw} {h : Host} {reason : RekeyReason}
    (hignore : h.ignoreDefault = false) (hreason : h.rekeyReason draw = some reason) :
    h.withUsableKeys draw = (h.withKeys (KeyPair.fresh draw), some reason) := by
  rw [withUsableKeys, if_neg (by simp [hignore]), hreason]

/-- The reason that is given for new keys. -/
theorem snd_withUsableKeys (draw : Draw) (h : Host) :
    (h.withUsableKeys draw).2 = if h.ignoreDefault then none else h.rekeyReason draw := by
  rw [withUsableKeys]
  split
  · rfl
  · cases hreason : h.rekeyReason draw <;> rfl

/-- No reason is left where the keys have been dealt with. -/
theorem rekeyReason_fst_withUsableKeys {draw : Draw} {h : Host}
    (hignore : h.ignoreDefault = false) : (h.withUsableKeys draw).1.rekeyReason draw = none := by
  cases hreason : h.rekeyReason draw with
  | none => rwa [withUsableKeys_of_kept (.inr hreason)]
  | some reason =>
    rw [withUsableKeys_of_rekeyReason hignore hreason]
    exact rekeyReason_fresh draw draw h

end Host

/-! ## Reports of new keys -/

/-- The report of a host, if it is given new keys. -/
def Host.rotation? (draw : Draw) (h : Host) : Option Rotation :=
  if h.ignoreDefault then none else (h.rekeyReason draw).map (⟨h.hostname, ·⟩)

/-- The reports of all hosts are those of the hosts one by one. -/
theorem rotationsOf_eq (draws : Draws) (hs : List Host) :
    rotationsOf draws hs = (hs.mapIdx fun i h => h.rotation? (draws i)).reduceOption := by
  have hone : ∀ (draw : Draw) (h : Host), (h.withUsableKeys draw).2.map
      (⟨(h.withUsableKeys draw).1.hostname, ·⟩) = h.rotation? draw := by
    intro draw h
    obtain ⟨publicKey, privateKey, hkeys⟩ := h.exists_fst_withUsableKeys draw
    rw [Host.snd_withUsableKeys, hkeys, Host.rotation?]
    split <;> rfl
  calc rotationsOf draws hs
      = ((hs.mapIdx fun i h => h.withUsableKeys (draws i)).map
          fun keyed => keyed.2.map (⟨keyed.1.hostname, ·⟩)).reduceOption := by
        rw [rotationsOf, List.reduceOption, List.filterMap_map]
        rfl
    _ = _ := by
        rw [List.map_mapIdx]
        simp only [hone]

/-- The hosts that are reported, with the reasons. -/
theorem mem_rotationsOf {draws : Draws} {hs : List Host} {r : Rotation} :
    r ∈ rotationsOf draws hs ↔ ∃ (i : Nat) (h : Host), hs[i]? = some h ∧
      h.ignoreDefault = false ∧ h.rekeyReason (draws i) = some r.reason ∧
        h.hostname = r.hostname := by
  have hreported : ∀ (draw : Draw) (h : Host),
      ((h.withUsableKeys draw).2.map (⟨(h.withUsableKeys draw).1.hostname, ·⟩) = some r ↔
        h.ignoreDefault = false ∧ h.rekeyReason draw = some r.reason ∧
          h.hostname = r.hostname) := by
    intro draw h
    obtain ⟨name, reason⟩ := r
    obtain ⟨publicKey, privateKey, hkeys⟩ := h.exists_fst_withUsableKeys draw
    rw [Host.snd_withUsableKeys, hkeys]
    cases h.ignoreDefault <;> simp [Host.hostname]
  simp only [← hreported]
  rw [rotationsOf, List.mem_filterMap]
  constructor
  · rintro ⟨keyed, hkeyed, hr⟩
    obtain ⟨i, hi⟩ := List.mem_iff_getElem?.1 hkeyed
    rw [List.getElem?_mapIdx, Option.map_eq_some_iff] at hi
    obtain ⟨h, hh, rfl⟩ := hi
    exact ⟨i, h, hh, hr⟩
  · rintro ⟨i, h, hh, hr⟩
    exact ⟨_, List.mem_of_getElem? (by rw [List.getElem?_mapIdx, hh, Option.map_some]), hr⟩

/-- No host is given new keys just when the keys of all hosts that take any are accepted. -/
theorem rotationsOf_eq_nil {draws : Draws} {hs : List Host} : rotationsOf draws hs = [] ↔
    ∀ (i : Nat) (h : Host), hs[i]? = some h →
      h.ignoreDefault = true ∨ h.rekeyReason (draws i) = none := by
  simp only [List.eq_nil_iff_forall_not_mem, mem_rotationsOf, not_exists, not_and]
  constructor
  · intro hall i h hi
    cases hignore : h.ignoreDefault with
    | true => exact .inl rfl
    | false =>
      refine .inr (Option.eq_none_iff_forall_not_mem.2 fun reason hreason => ?_)
      exact hall ⟨h.hostname, reason⟩ i h hi hignore hreason rfl
  · intro hall r i h hi hignore hreason
    rcases hall i h hi with hignored | hnone
    · simp [hignore] at hignored
    · simp [hnone] at hreason

/-- The names that are reported stand in the order of the hosts. -/
theorem map_hostname_rotationsOf_sublist (draws : Draws) (hs : List Host) :
    ((rotationsOf draws hs).map Rotation.hostname).Sublist (hs.map Host.hostname) := by
  have hnames : (hs.mapIdx fun i h => h.withUsableKeys (draws i)).map (·.1.hostname) =
      hs.map Host.hostname := by
    rw [List.map_mapIdx, ← List.mapIdx_eq_map]
    refine List.mapIdx_eq_mapIdx_iff.2 fun i hi => ?_
    obtain ⟨publicKey, privateKey, hkeys⟩ := hs[i].exists_fst_withUsableKeys (draws i)
    rw [hkeys]
    rfl
  rw [← hnames, rotationsOf]
  refine List.map_filterMap_sublist_map (fun (h, reason) r hr => ?_) _
  obtain ⟨reason, -, rfl⟩ := Option.map_eq_some_iff.1 hr
  rfl

/-! ## A mesh with a pair of keys -/

namespace Mesh

/-- A mesh of two hosts, of which the first has a pair of keys. -/
def keyedMesh : Topology where
  name := "keyed"
  address := some "10.0.0.0/29"
  groups := [
    { name := "a", visibility := .openNat, hosts := [
      { server := { hostname := "a1" }
        privateKey := some "kG6Mhn0emz+SyzstvVcgukgG6KmX4qZw6rWYf94LTYg="
        publicKey := some "WZ7RVJGJetNwAqsyLqO+xbGZWOl1Mo41sIRLCkb/6lI=" },
      { server := { hostname := "a2" } }] }]

/-- The mesh is compiled, whatever is drawn. -/
theorem exists_compile_keyedMesh (draws : Draws) : ∃ m, compile keyedMesh {} draws = .ok m := by
  have hpool : (keyedMesh.withDefaultSubnet {}).pool =
      .ok (Pool.ofSubnet ⟨Ipv4.ofOctets 10 0 0 0, 29, by decide⟩) := by decide +kernel
  exact exists_compile_eq_ok.2 ⟨_, hpool, by decide +kernel, by decide +kernel⟩

/-- The public key belongs to the private one. -/
theorem matches_keyedMesh : ∀ host ∈ keyedMesh.hosts, ∀ k p, host.privateKey = some k →
    host.publicKey = some p → KeyPair.Matches k p := by
  have hpublic : publicTextFor "kG6Mhn0emz+SyzstvVcgukgG6KmX4qZw6rWYf94LTYg=" =
      .ok (Text.trim "WZ7RVJGJetNwAqsyLqO+xbGZWOl1Mo41sIRLCkb/6lI=") := by decide +kernel
  have hpair : KeyPair.Matches "kG6Mhn0emz+SyzstvVcgukgG6KmX4qZw6rWYf94LTYg="
      "WZ7RVJGJetNwAqsyLqO+xbGZWOl1Mo41sIRLCkb/6lI=" := publicTextFor_eq_ok.1 hpublic
  intro host hhost k p hk hp
  rcases List.mem_cons.1 hhost with rfl | hhost
  · cases hk
    cases hp
    exact hpair
  · rcases List.mem_cons.1 hhost with rfl | hhost
    · cases hk
    · exact absurd hhost List.not_mem_nil

end Mesh

end TunnelMesh
