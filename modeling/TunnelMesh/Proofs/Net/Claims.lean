import Mathlib
import TunnelMesh.Proofs.Net.Pool

/-!
# A pool is a set of claims

Whatever is asked of a pool, and in whatever order, all that matters of it is which addresses are
claimed. `Subnet.ClaimStep` says for each operation what it makes of that set and what it answers,
without a pool: only usable addresses are ever claimed, and the lowest one that is not is handed
out. A pool that represents a set (`Pool.Represents`) answers as the set does and represents what
becomes of it (`Pool.Represents.step`), hence so does a new pool after any sequence of operations,
and its two counts add up to the number of usable addresses (`Pool.run_ofSubnet_represents`).
-/

namespace TunnelMesh

namespace Pool

/-! ## Operations -/

/-- What may be asked of a pool. -/
inductive Operation where
  | claim (a : Ipv4)
  | claimAll (as : List Ipv4)
  | allocate
  | release (a : Ipv4)
  deriving DecidableEq, Repr

/-- What a pool answers. -/
inductive Answer where
  | nothing
  /-- The address is claimed now, if it was asked for, or was claimed, if it was given up. -/
  | flag (claimed : Bool)
  /-- The address that is handed out, if there is one. -/
  | address (a : Option Ipv4)
  deriving DecidableEq, Repr

/-- The answer of a pool to an operation, and the pool afterwards. -/
def perform (p : Pool) : Operation → Answer × Pool
  | .claim a => (.flag (p.claim a).1, (p.claim a).2)
  | .claimAll as => (.nothing, p.claimAll as)
  | .allocate =>
    match p.allocate with
    | some (a, q) => (.address (some a), q)
    | none => (.address none, p)
  | .release a => (.flag (p.release a).1, (p.release a).2)

/-- The answers of a pool to several operations, and the pool afterwards. -/
def run : Pool → List Operation → List Answer × Pool
  | p, [] => ([], p)
  | p, op :: ops =>
    let (answer, q) := p.perform op
    let (answers, r) := q.run ops
    (answer :: answers, r)

end Pool

/-! ## Sets of claims -/

namespace Subnet

/-- What an operation makes of the set of claimed addresses of a subnet, and its answer. -/
inductive ClaimStep (s : Subnet) : Set Ipv4 → Pool.Operation → Pool.Answer → Set Ipv4 → Prop
  | claim {c : Set Ipv4} {a : Ipv4} : s.isUsable a = true →
      ClaimStep s c (.claim a) (.flag true) (insert a c)
  | refuse {c : Set Ipv4} {a : Ipv4} : s.isUsable a = false →
      ClaimStep s c (.claim a) (.flag false) c
  | claimAll {c : Set Ipv4} {as : List Ipv4} :
      ClaimStep s c (.claimAll as) .nothing (c ∪ {a | a ∈ as ∧ s.isUsable a = true})
  /-- The lowest usable address that is not claimed is handed out. -/
  | allocate {c : Set Ipv4} {a : Ipv4} : s.isUsable a = true → a ∉ c →
      (∀ b, s.isUsable b = true → b ∉ c → a.toNat ≤ b.toNat) →
        ClaimStep s c .allocate (.address (some a)) (insert a c)
  | exhausted {c : Set Ipv4} : (∀ a, s.isUsable a = true → a ∈ c) →
      ClaimStep s c .allocate (.address none) c
  | release {c : Set Ipv4} {a : Ipv4} : a ∈ c →
      ClaimStep s c (.release a) (.flag true) (c \ {a})
  | unclaimed {c : Set Ipv4} {a : Ipv4} : a ∉ c → ClaimStep s c (.release a) (.flag false) c

/-- What several operations make of the set of claimed addresses, one after another, and their
answers. -/
inductive ClaimRun (s : Subnet) :
    Set Ipv4 → List Pool.Operation → List Pool.Answer → Set Ipv4 → Prop
  | nil {c : Set Ipv4} : ClaimRun s c [] [] c
  | cons {c c₁ c₂ : Set Ipv4} {op : Pool.Operation} {ops : List Pool.Operation}
      {answer : Pool.Answer} {answers : List Pool.Answer} : ClaimStep s c op answer c₁ →
        ClaimRun s c₁ ops answers c₂ → ClaimRun s c (op :: ops) (answer :: answers) c₂

/-- The usable addresses are as many as the capacity says. -/
theorem ncard_usable (s : Subnet) : {a | s.isUsable a = true}.ncard = s.capacity := by
  have hnodup : s.usable.Nodup := s.usable_ascending.imp fun hlt heq => (heq ▸ hlt).ne rfl
  have hset : {a | s.isUsable a = true} = (s.usable.toFinset : Set Ipv4) := by
    ext a
    rw [List.coe_toFinset]
    exact mem_usable.symm
  rw [hset, Set.ncard_coe_finset, List.toFinset_card_of_nodup hnodup, usable, List.length_map,
    List.length_range']

/-- A subnet has finitely many usable addresses. -/
theorem finite_usable (s : Subnet) : {a | s.isUsable a = true}.Finite := by
  refine Set.Finite.subset s.usable.toFinset.finite_toSet fun a ha => ?_
  rw [List.coe_toFinset]
  exact mem_usable.2 ha

/-- There are fewer usable addresses than addresses: of a large subnet, the lowest and the highest
member are left out. -/
theorem capacity_lt (s : Subnet) : s.capacity < 2 ^ 32 := by
  rw [capacity_eq]
  split
  · have hpos := s.size_pos
    have hle := s.lowest_add_size_le
    omega
  · next hlength =>
    have hsize : s.size ≤ 2 ^ 1 := by
      rw [size_eq]
      exact Nat.pow_le_pow_right Nat.two_pos (by omega)
    omega

end Subnet

/-! ## Pools -/

namespace Pool

/-- The pool is that of a subnet, and the set is that of its claimed addresses. -/
structure Represents (p : Pool) (s : Subnet) (c : Set Ipv4) : Prop where
  subnet_eq : p.subnet = s.truncated
  /-- No claim is listed twice. -/
  nodup : p.claimed.Nodup
  isClaimed_iff : ∀ a, p.isClaimed a = true ↔ a ∈ c
  usable : ∀ a ∈ c, s.isUsable a = true

/-- The two counts of a pool are those of a set of claims and of what it leaves of the subnet. None
of the differences that they are computed by goes below zero, and no number is too large. -/
structure CountsFor (p : Pool) (s : Subnet) (c : Set Ipv4) : Prop where
  claimedCount_eq : p.claimedCount = c.ncard
  availableCount_eq : p.availableCount = ({a | s.isUsable a = true} \ c).ncard
  add_eq : p.claimedCount + p.availableCount = {a | s.isUsable a = true}.ncard
  first_le_last : p.subnet.first ≤ p.subnet.last
  last_lt : p.subnet.last < 2 ^ 32
  claimedCount_le : p.claimedCount ≤ p.subnet.capacity
  capacity_lt : p.subnet.capacity < 2 ^ 32

/-- A new pool represents the empty set. -/
theorem represents_ofSubnet (s : Subnet) : (ofSubnet s).Represents s ∅ where
  subnet_eq := rfl
  nodup := List.nodup_nil
  isClaimed_iff a := by simp [ofSubnet, isClaimed]
  usable := by simp

/-- An address that is put among the claimed ones is there once. -/
theorem nodup_insert {p : Pool} (h : p.claimed.Nodup) (a : Ipv4) :
    (p.insert a).claimed.Nodup := by
  rw [insert]
  split
  · exact h
  · next hnot =>
    rw [isClaimed, List.contains_iff_mem] at hnot
    exact List.nodup_cons.2 ⟨hnot, h⟩

/-- A claim leaves each claimed address there once. -/
theorem nodup_claim {p : Pool} (h : p.claimed.Nodup) (a : Ipv4) :
    (p.claim a).2.claimed.Nodup := by
  rw [claim]
  split
  · exact nodup_insert h a
  · exact h

/-- Any claims leave each claimed address there once. -/
theorem nodup_claimAll {p : Pool} (h : p.claimed.Nodup) (as : List Ipv4) :
    (p.claimAll as).claimed.Nodup := by
  induction as generalizing p with
  | nil => exact h
  | cons a as ih => exact ih (nodup_claim h a)

/-- What is claimed after a claim is given up. -/
theorem isClaimed_release {p : Pool} (h : p.claimed.Nodup) {a b : Ipv4} :
    (p.release a).2.isClaimed b = true ↔ p.isClaimed b = true ∧ b ≠ a := by
  have hrelease : (p.release a).2.isClaimed b = (p.claimed.erase a).contains b := rfl
  rw [hrelease, isClaimed, List.contains_iff_mem, List.contains_iff_mem, h.mem_erase_iff, and_comm]

/-- The address that is handed out is the lowest one that is free. -/
theorem allocate_eq_some {p q : Pool} {a : Ipv4} (h : p.allocate = some (a, q)) :
    q = p.insert a ∧ a ∈ p.free ∧ ∀ b ∈ p.free, a.toNat ≤ b.toNat := by
  rw [allocate, lowestFree_eq, Option.map_eq_some_iff] at h
  obtain ⟨b, hhead, heq⟩ := h
  obtain ⟨rest, hfree⟩ := List.head?_eq_some_iff.1 hhead
  simp only [Prod.mk.injEq] at heq
  obtain ⟨rfl, rfl⟩ := heq
  have hasc := p.free_ascending
  rw [hfree, List.pairwise_cons] at hasc
  rw [hfree]
  refine ⟨rfl, List.mem_cons_self, fun c hc => ?_⟩
  rcases List.mem_cons.1 hc with rfl | hc
  · exact le_rfl
  · exact (hasc.1 c hc).le

/-- No address is given out only where none is free. -/
theorem allocate_eq_none {p : Pool} (h : p.allocate = none) : p.free = [] := by
  rw [allocate, lowestFree_eq, Option.map_eq_none_iff, List.head?_eq_none_iff] at h
  exact h

namespace Represents

variable {p : Pool} {s : Subnet} {c : Set Ipv4}

theorem isUsable_eq (h : p.Represents s c) (a : Ipv4) : p.subnet.isUsable a = s.isUsable a := by
  rw [h.subnet_eq, Subnet.isUsable_truncated]

/-- The free addresses of a pool are the usable ones that are not in its set. -/
theorem mem_free_iff (h : p.Represents s c) {a : Ipv4} :
    a ∈ p.free ↔ s.isUsable a = true ∧ a ∉ c := by
  rw [mem_free, h.isUsable_eq, ← h.isClaimed_iff, Bool.not_eq_true]

/-- A usable address is claimed. -/
theorem insert (h : p.Represents s c) {a : Ipv4} (ha : s.isUsable a = true) :
    (p.insert a).Represents s (Insert.insert a c) where
  subnet_eq := (p.subnet_insert a).trans h.subnet_eq
  nodup := nodup_insert h.nodup a
  isClaimed_iff b := by rw [isClaimed_insert, h.isClaimed_iff, Set.mem_insert_iff]
  usable b hb := by
    rcases hb with rfl | hb
    · exact ha
    · exact h.usable b hb

/-- Several addresses are claimed, if they are usable. -/
theorem claimAll (h : p.Represents s c) (as : List Ipv4) :
    (p.claimAll as).Represents s (c ∪ {a | a ∈ as ∧ s.isUsable a = true}) where
  subnet_eq := (p.subnet_claimAll as).trans h.subnet_eq
  nodup := nodup_claimAll h.nodup as
  isClaimed_iff b := by
    rw [isClaimed_claimAll, h.isUsable_eq, h.isClaimed_iff, Set.mem_union, Set.mem_ofPred_eq,
      or_comm]
  usable b hb := by
    rcases hb with hb | hb
    · exact h.usable b hb
    · exact hb.2

/-- An address is given up. -/
theorem release (h : p.Represents s c) (a : Ipv4) : (p.release a).2.Represents s (c \ {a}) where
  subnet_eq := h.subnet_eq
  nodup := h.nodup.erase a
  isClaimed_iff b := by
    rw [isClaimed_release h.nodup, h.isClaimed_iff, Set.mem_sdiff, Set.mem_singleton_iff]
  usable b hb := h.usable b hb.1

/-- A pool answers an operation as the set that it represents does, and represents what becomes of
that set. -/
theorem step (h : p.Represents s c) (op : Operation) : ∃ c',
    s.ClaimStep c op (p.perform op).1 c' ∧ (p.perform op).2.Represents s c' := by
  cases op with
  | claim a =>
    cases ha : s.isUsable a with
    | true =>
      have hclaim : p.claim a = (true, p.insert a) := by
        rw [claim, h.isUsable_eq, ha, if_pos rfl]
      rw [perform, hclaim]
      exact ⟨_, .claim ha, h.insert ha⟩
    | false =>
      have hclaim : p.claim a = (false, p) := by
        rw [claim, h.isUsable_eq, ha, if_neg Bool.false_ne_true]
      rw [perform, hclaim]
      exact ⟨c, .refuse ha, h⟩
  | claimAll as => exact ⟨_, .claimAll, h.claimAll as⟩
  | allocate =>
    rw [perform]
    cases hallocate : p.allocate with
    | some r =>
      obtain ⟨a, q⟩ := r
      obtain ⟨rfl, hfree, hlowest⟩ := allocate_eq_some hallocate
      obtain ⟨husable, hnot⟩ := h.mem_free_iff.1 hfree
      refine ⟨_, .allocate husable hnot fun b hb hb' => ?_, h.insert husable⟩
      exact hlowest b (h.mem_free_iff.2 ⟨hb, hb'⟩)
    | none =>
      have hnone := allocate_eq_none hallocate
      refine ⟨c, .exhausted fun a ha => ?_, h⟩
      by_contra hnot
      have hfree : a ∈ p.free := h.mem_free_iff.2 ⟨ha, hnot⟩
      rw [hnone] at hfree
      exact List.not_mem_nil hfree
  | release a =>
    have hanswer : (p.release a).1 = p.isClaimed a := rfl
    rw [perform, hanswer]
    cases ha : p.isClaimed a with
    | true => exact ⟨_, .release ((h.isClaimed_iff a).1 ha), h.release a⟩
    | false =>
      have hnot : a ∉ c := fun hc => by simp [(h.isClaimed_iff a).2 hc] at ha
      have hsame : c \ {a} = c := Set.sdiff_singleton_eq_self hnot
      exact ⟨c, .unclaimed hnot, hsame ▸ h.release a⟩

/-- A pool answers any operations as the set that it represents does, and represents what becomes of
that set. -/
theorem run (h : p.Represents s c) (ops : List Operation) : ∃ c',
    s.ClaimRun c ops (p.run ops).1 c' ∧ (p.run ops).2.Represents s c' := by
  induction ops generalizing p c with
  | nil => exact ⟨c, .nil, h⟩
  | cons op ops ih =>
    obtain ⟨c₁, hstep, h₁⟩ := h.step op
    obtain ⟨c₂, hrun, h₂⟩ := ih h₁
    exact ⟨c₂, .cons hstep hrun, h₂⟩

/-- The counts of a pool are those of the set that it represents. -/
theorem countsFor (h : p.Represents s c) : p.CountsFor s c := by
  have hset : c = (p.claimed.toFinset : Set Ipv4) := by
    ext a
    rw [← h.isClaimed_iff, List.coe_toFinset, isClaimed, List.contains_iff_mem]
    rfl
  have hclaimed : p.claimedCount = c.ncard := by
    rw [hset, Set.ncard_coe_finset, List.toFinset_card_of_nodup h.nodup, claimedCount]
  have hcapacity : p.subnet.capacity = {a | s.isUsable a = true}.ncard := by
    rw [← Subnet.ncard_usable]
    simp only [h.isUsable_eq]
  have hsub : c ⊆ {a | s.isUsable a = true} := h.usable
  have hle : c.ncard ≤ {a | s.isUsable a = true}.ncard := Set.ncard_le_ncard hsub s.finite_usable
  have havailable : p.availableCount = {a | s.isUsable a = true}.ncard - c.ncard := by
    rw [availableCount, hcapacity, hclaimed]
  have hlast := p.subnet.last_lt
  exact {
    claimedCount_eq := hclaimed
    availableCount_eq := by
      rw [havailable, Set.ncard_sdiff hsub (s.finite_usable.subset hsub)]
    add_eq := by omega
    first_le_last := p.subnet.first_le_last
    last_lt := hlast
    claimedCount_le := by omega
    capacity_lt := p.subnet.capacity_lt }

end Represents

/-- After any operations on a new pool, the answers and the claimed addresses are those of a set of
usable addresses under the same operations, and the counts are those of that set. -/
theorem run_ofSubnet_represents (s : Subnet) (ops : List Operation) : ∃ c,
    s.ClaimRun ∅ ops ((ofSubnet s).run ops).1 c ∧ ((ofSubnet s).run ops).2.Represents s c ∧
      ((ofSubnet s).run ops).2.CountsFor s c := by
  obtain ⟨c, hrun, hrepresents⟩ := (represents_ofSubnet s).run ops
  exact ⟨c, hrun, hrepresents, hrepresents.countsFor⟩

/-- A subnet of two usable addresses, of which the lower one is given up and handed out again. -/
example : ((ofSubnet ⟨Ipv4.ofOctets 10 2 1 1, 30, by decide⟩).run
    [.claim (Ipv4.ofOctets 10 2 1 2), .allocate, .allocate, .release (Ipv4.ofOctets 10 2 1 1),
      .allocate]).1 =
      [.flag true, .address (some (Ipv4.ofOctets 10 2 1 1)), .address none, .flag true,
        .address (some (Ipv4.ofOctets 10 2 1 1))] := by
  decide

end Pool

end TunnelMesh
