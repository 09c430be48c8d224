import Mathlib
import TunnelMesh.Proofs.Mesh.Resolution

/-!
# Addresses are given by first fit

Whatever the hosts of a topology declare, and in whatever order, a compiled mesh gives the hosts
that wait for an address the lowest usable ones that no host declares, in the order of the topology,
and leaves all other addresses as they are but for blanks (`Mesh.addresses_firstFit`). So two hosts
share a usable address only if both of them declared it (`FirstFit.declares_of_shared`).
-/

namespace TunnelMesh

/-- The addresses of resolved hosts are those of first fit around the declared ones: `free` is what
the hosts leave of the subnet, and the waiting hosts have the addresses of `free` in order. -/
structure FirstFit (s : Subnet) (hosts resolved : List Host) (free : List Ipv4) : Prop where
  length_eq : resolved.length = hosts.length
  ascending : free.Pairwise (·.toNat < ·.toNat)
  mem_free : ∀ a, a ∈ free ↔ s.isUsable a = true ∧ ∀ h ∈ hosts, ¬ h.DeclaresAddress a
  /-- Hosts that ignore the defaults and hosts with a usable address keep what they declare. -/
  kept : ∀ (i : Nat) (h : Host), hosts[i]? = some h →
    (h.ignoreDefault = true ∨ h.DeclaresUsable s) →
      ∃ r, resolved[i]? = some r ∧ r.address = h.address.map Text.trim
  /-- Every other host has the free address whose position is the number of such hosts before. -/
  filled : ∀ (i : Nat) (h : Host), hosts[i]? = some h →
    h.ignoreDefault = false → ¬ h.DeclaresUsable s →
      ∃ r a, resolved[i]? = some r ∧ free[waitingBefore s hosts i]? = some a ∧
        r.address = some a.text

namespace FirstFit

variable {s : Subnet} {hosts resolved : List Host} {free : List Ipv4}

/-- What the hosts leave of the subnet is what is left of the list of its usable addresses. -/
theorem free_eq (hfit : FirstFit s hosts resolved free) :
    free = s.usable.filter fun a => ∀ h ∈ hosts, ¬ h.DeclaresAddress a := by
  have hnodup : ∀ {as : List Ipv4}, as.Pairwise (·.toNat < ·.toNat) → as.Nodup :=
    fun hasc => hasc.imp fun hlt heq => (heq ▸ hlt).ne rfl
  have hleft : (s.usable.filter fun a =>
      ∀ h ∈ hosts, ¬ h.DeclaresAddress a).Pairwise (·.toNat < ·.toNat) :=
    s.usable_ascending.filter _
  have hperm : free.Perm (s.usable.filter fun a => ∀ h ∈ hosts, ¬ h.DeclaresAddress a) := by
    refine (List.perm_ext_iff_of_nodup (hnodup hfit.ascending) (hnodup hleft)).2 fun a => ?_
    rw [hfit.mem_free, List.mem_filter, Subnet.mem_usable, decide_eq_true_eq]
  exact hperm.eq_of_pairwise (fun a b _ _ hlt hgt => absurd hlt (lt_asymm hgt)) hfit.ascending
    hleft

/-- A resolved host's address is the one declared before, or a free one. -/
theorem declares_or_filled (hfit : FirstFit s hosts resolved free) {i : Nat} {r : Host} {a : Ipv4}
    (hr : resolved[i]? = some r) (ha : r.DeclaresAddress a) :
    ∃ h, hosts[i]? = some h ∧ (h.DeclaresAddress a ∨
      h.awaitsAddress s = true ∧ free[waitingBefore s hosts i]? = some a) := by
  obtain ⟨hlt, -⟩ := List.getElem?_eq_some_iff.1 hr
  obtain ⟨h, hh⟩ : ∃ h, hosts[i]? = some h :=
    ⟨_, List.getElem?_eq_getElem (hfit.length_eq ▸ hlt)⟩
  rw [← Host.declared?_eq_some] at ha
  refine ⟨h, hh, ?_⟩
  cases hwaits : h.awaitsAddress s with
  | false =>
    obtain ⟨r', hr', haddress⟩ := hfit.kept i _ hh (Host.awaitsAddress_eq_false.1 hwaits)
    obtain rfl : r = r' := Option.some.inj (hr.symm.trans hr')
    have hsame : r.declared? = h.trimmed.declared? := congrArg (·.bind Ipv4.ofHostText?) haddress
    rw [hsame, Host.declared?_trimmed, Host.declared?_eq_some] at ha
    exact .inl ha
  | true =>
    obtain ⟨hignore, hdeclares⟩ := Host.awaitsAddress_eq_true.1 hwaits
    obtain ⟨r', b, hr', hb, haddress⟩ := hfit.filled i _ hh hignore hdeclares
    obtain rfl : r = r' := Option.some.inj (hr.symm.trans hr')
    rw [Host.declared?, haddress, Option.bind_some, Ipv4.ofHostText?_text] at ha
    exact .inr ⟨rfl, hb.trans ha⟩

/-- Two hosts share a usable address only if both declared it. -/
theorem declares_of_shared (hfit : FirstFit s hosts resolved free) {i j : Nat} {r r' : Host}
    {a : Ipv4} (hij : i ≠ j) (hr : resolved[i]? = some r) (hr' : resolved[j]? = some r')
    (ha : r.DeclaresAddress a) (ha' : r'.DeclaresAddress a) :
    ∃ h h', hosts[i]? = some h ∧ hosts[j]? = some h' ∧
      h.DeclaresAddress a ∧ h'.DeclaresAddress a := by
  obtain ⟨h, hh, hd | ⟨hw, hfree⟩⟩ := hfit.declares_or_filled hr ha
  · obtain ⟨h', hh', hd' | ⟨hw', hfree'⟩⟩ := hfit.declares_or_filled hr' ha'
    · exact ⟨h, h', hh, hh', hd, hd'⟩
    · exact absurd hd (((hfit.mem_free a).1 (List.mem_of_getElem? hfree')).2 h
        (List.mem_of_getElem? hh))
  · obtain ⟨h', hh', hd' | ⟨hw', hfree'⟩⟩ := hfit.declares_or_filled hr' ha'
    · exact absurd hd' (((hfit.mem_free a).1 (List.mem_of_getElem? hfree)).2 h'
        (List.mem_of_getElem? hh'))
    · -- two positions of one address in the ascending list of free ones are the same
      have hnodup : free.Nodup := hfit.ascending.imp fun hlt heq => (heq ▸ hlt).ne rfl
      have hsame : waitingBefore s hosts i = waitingBefore s hosts j :=
        (List.getElem?_inj (List.getElem?_eq_some_iff.1 hfree).1 hnodup).1
          (hfree.trans hfree'.symm)
      rcases Nat.lt_or_gt_of_ne hij with hlt | hlt
      · exact absurd hsame (waitingBefore_lt hlt hh hw).ne
      · exact absurd hsame (waitingBefore_lt hlt hh' hw').ne'

end FirstFit

namespace Mesh

/-- A compiled mesh has the subnet of its topology and defaults, gives addresses by first fit around
every declared one, and no address that a host did not declare is given twice. -/
theorem addresses_firstFit {t : Topology} {d : Defaults} {draws : Draws} {m : Mesh}
    (h : compile t d draws = .ok m) :
    t.HasSubnet d m.subnet ∧ (∃ free, FirstFit m.subnet t.hosts m.topology.hosts free) ∧
      ∀ (i j : Nat) (r r' : Host) (a : Ipv4), i ≠ j → m.topology.hosts[i]? = some r →
        m.topology.hosts[j]? = some r' → r.DeclaresAddress a → r'.DeclaresAddress a →
        m.subnet.isUsable a = true →
          ∃ host host', t.hosts[i]? = some host ∧ t.hosts[j]? = some host' ∧
            host.DeclaresAddress a ∧ host'.DeclaresAddress a := by
  obtain ⟨p, hp, hsub, hle, hhosts⟩ := hosts_of_compile h
  have hfit : FirstFit m.subnet t.hosts m.topology.hosts (t.freeAddresses p) := by
    refine ⟨?_, Pool.free_ascending _, ?_, ?_, ?_⟩
    · rw [hhosts, List.length_mapIdx]
    · intro a
      rw [Topology.mem_freeAddresses (Topology.claimed_pool hp), hsub]
    · intro i host hhost hstays
      have hstill : host.trimmed.awaitsAddress m.subnet = false := by
        rw [Host.awaitsAddress_trimmed, Host.awaitsAddress_eq_false]
        exact hstays
      refine ⟨_, by rw [hhosts, List.getElem?_mapIdx, hhost, Option.map_some], ?_⟩
      rw [Host.address_settled, Host.withAddressAt, hstill]
      rfl
    · intro i host hhost hignore hdeclares
      have hwaits := Host.awaitsAddress_eq_true.2 ⟨hignore, hdeclares⟩
      have hrank := waitingBefore_lt_of_countP_le hle hhost hwaits
      refine ⟨_, _, by rw [hhosts, List.getElem?_mapIdx, hhost, Option.map_some],
        List.getElem?_eq_getElem hrank, ?_⟩
      rw [Host.address_settled, Host.withAddressAt, Host.awaitsAddress_trimmed, hwaits, if_pos rfl,
        List.getElem?_eq_getElem hrank, Option.map_some]
  exact ⟨hasSubnet_of_compile h, ⟨_, hfit⟩,
    fun i j r r' a hij hr hr' ha ha' _ => hfit.declares_of_shared hij hr hr' ha ha'⟩

/-- First fit in a mesh of four hosts: the first and the last wait for an address, and are given the
two lowest ones that the others leave. -/
theorem addresses_firstFit_mixedMesh : ∃ m, compile mixedMesh {} (Draw.expand []) = .ok m ∧
    m.topology.hosts[0]?.map Host.address = some (some "10.0.0.3") ∧
      m.topology.hosts[1]?.map Host.address = some (some "10.0.0.2/24") ∧
        m.topology.hosts[2]?.map Host.address = some (some "10.0.0.1") ∧
          m.topology.hosts[3]?.map Host.address = some (some "10.0.0.4") := by
  obtain ⟨m, hm⟩ := exists_compile_mixedMesh none (Draw.expand [])
  obtain ⟨hsubnet, ⟨free, hfit⟩, -⟩ := addresses_firstFit hm
  have hpool : (mixedMesh.withDefaultSubnet {}).pool =
      .ok ⟨⟨Ipv4.ofOctets 10 0 0 0, 29, by decide⟩, []⟩ := by decide +kernel
  have hpool' := Topology.pool_withDefaultSubnet_eq_ok.2 ⟨_, hsubnet, rfl⟩
  have hs : m.subnet = ⟨Ipv4.ofOctets 10 0 0 0, 29, by decide⟩ :=
    congrArg Pool.subnet (Except.ok.inj (hpool'.symm.trans hpool))
  rw [hs] at hfit
  have hfree : free = [.ofOctets 10 0 0 3, .ofOctets 10 0 0 4, .ofOctets 10 0 0 5,
      .ofOctets 10 0 0 6] := hfit.free_eq.trans (by decide +kernel)
  subst hfree
  obtain ⟨r₀, _, hr₀, ha₀, h₀⟩ := hfit.filled 0 _ rfl rfl (by decide +kernel)
  obtain ⟨r₁, hr₁, h₁⟩ := hfit.kept 1 _ rfl (by decide +kernel)
  obtain ⟨r₂, hr₂, h₂⟩ := hfit.kept 2 _ rfl (by decide +kernel)
  obtain ⟨r₃, _, hr₃, ha₃, h₃⟩ := hfit.filled 3 _ rfl rfl (by decide +kernel)
  cases ha₀
  cases ha₃
  refine ⟨m, hm, ?_, ?_, ?_, ?_⟩
  · rw [hr₀, Option.map_some, h₀]
    rfl
  · rw [hr₁, Option.map_some, h₁]
    decide
  · rw [hr₂, Option.map_some, h₂]
    decide
  · rw [hr₃, Option.map_some, h₃]
    rfl

end Mesh

end TunnelMesh
