import Mathlib
import TunnelMesh.Net.Pool

/-!
# Free addresses in order

The usable addresses of a subnet are listed in ascending order (`Subnet.usable`), and what a pool
may still hand out is what is left of that list without the claims (`Pool.free`). Allocating takes
the head of the list (`Pool.allocate_of_free_cons`) and fails just when there is none
(`Pool.allocate_of_free_nil`).
-/

namespace TunnelMesh

namespace Ipv4

/-- An address is made again of its number. -/
theorem ofNat_toNat (a : Ipv4) : ofNat a.toNat = a := by
  obtain ⟨n, hn⟩ := a
  simp only [ofNat, Nat.mod_eq_of_lt hn]

theorem toNat_ofNat {n : Nat} (h : n < 4294967296) : (ofNat n).toNat = n :=
  Nat.mod_eq_of_lt h

end Ipv4

/-! ## Usable addresses -/

namespace Subnet

variable (s : Subnet)

theorem size_eq : s.size = 2 ^ (32 - s.length) := rfl

/-- No subnet is without addresses. -/
theorem size_pos : 0 < s.size :=
  s.size_eq ▸ Nat.two_pow_pos _

/-- A subnet with a length below 31 has four addresses or more. -/
theorem four_le_size (h : s.length < 31) : 4 ≤ s.size := by
  have htwo : 2 ≤ 32 - s.length := by omega
  calc 4 = 2 ^ 2 := rfl
    _ ≤ 2 ^ (32 - s.length) := Nat.pow_le_pow_right (by decide) htwo
    _ = s.size := s.size_eq.symm

/-- The members of a subnet are all 32-bit numbers. -/
theorem lowest_add_size_le : s.lowest + s.size ≤ 4294967296 := by
  have hsplit : 2 ^ s.length * s.size = 4294967296 := by
    rw [size_eq, ← pow_add, Nat.add_sub_cancel' s.length_le]
    rfl
  have hlt : s.address.toNat / s.size < 2 ^ s.length :=
    Nat.div_lt_of_lt_mul (by rw [Nat.mul_comm, hsplit]; exact s.address.lt)
  calc s.lowest + s.size = (s.address.toNat / s.size + 1) * s.size := by rw [lowest]; ring
    _ ≤ 2 ^ s.length * s.size := Nat.mul_le_mul_right _ hlt
    _ = 4294967296 := hsplit

variable {s}

/-- No host of a subnet with more than two members has the lowest one. -/
theorem first_of_lt (h : s.length < 31) : s.first = s.lowest + 1 := by
  rw [first, if_neg h.not_ge]

/-- No host of a subnet with more than two members has the highest one. -/
theorem last_of_lt (h : s.length < 31) : s.last = s.highest - 1 := by
  rw [last, if_neg h.not_ge]

/-- From a length of 31 on, the lowest address is usable. -/
theorem first_of_le (h : 31 ≤ s.length) : s.first = s.lowest := by
  rw [first, if_pos h]

/-- From a length of 31 on, the highest address is usable. -/
theorem last_of_le (h : 31 ≤ s.length) : s.last = s.highest := by
  rw [last, if_pos h]

variable (s)

/-- There is a usable address in every subnet. -/
theorem first_le_last : s.first ≤ s.last := by
  have hpos := s.size_pos
  have hhighest : s.highest = s.lowest + (s.size - 1) := rfl
  rcases Nat.lt_or_ge s.length 31 with hlt | hge
  · have hfour := s.four_le_size hlt
    rw [first_of_lt hlt, last_of_lt hlt]
    omega
  · rw [first_of_le hge, last_of_le hge]
    omega

/-- Two members of a subnet are no host's, if it has more than two. -/
theorem capacity_eq : s.capacity = if s.length < 31 then s.size - 2 else s.size := by
  have hpos := s.size_pos
  have hhighest : s.highest = s.lowest + (s.size - 1) := rfl
  rcases Nat.lt_or_ge s.length 31 with hlt | hge
  · have hfour := s.four_le_size hlt
    rw [capacity, first_of_lt hlt, last_of_lt hlt, if_pos hlt]
    omega
  · rw [capacity, first_of_le hge, last_of_le hge, if_neg hge.not_gt]
    omega

/-- The last usable address has 32 bits. -/
theorem last_lt : s.last < 4294967296 := by
  have hpos := s.size_pos
  have hle := s.lowest_add_size_le
  rw [last, highest]
  split <;> omega

/-- The lowest member is the lowest of the subnet that it names, too. -/
@[simp] theorem lowest_truncated : s.truncated.lowest = s.lowest := by
  have hlt : s.lowest < 4294967296 := by
    have hpos := s.size_pos
    have hle := s.lowest_add_size_le
    omega
  calc s.truncated.lowest = (Ipv4.ofNat s.lowest).toNat / s.size * s.size := rfl
    _ = s.lowest / s.size * s.size := by rw [Ipv4.toNat_ofNat hlt]
    _ = s.lowest := by rw [lowest, Nat.mul_div_cancel _ s.size_pos]

/-- The first usable address does not depend on the bits behind the length. -/
@[simp] theorem first_truncated : s.truncated.first = s.first := by
  rw [first, first, lowest_truncated]
  rfl

/-- The last usable address does not depend on the bits behind the length. -/
@[simp] theorem last_truncated : s.truncated.last = s.last := by
  rw [last, last, highest, highest, lowest_truncated]
  rfl

/-- The number of usable addresses does not depend on the bits behind the length. -/
@[simp] theorem capacity_truncated : s.truncated.capacity = s.capacity := by
  rw [capacity, capacity, first_truncated, last_truncated]

/-- Whatever member names a subnet, the same addresses are usable. -/
@[simp] theorem isUsable_truncated (a : Ipv4) : s.truncated.isUsable a = s.isUsable a := by
  rw [isUsable, isUsable, first_truncated, last_truncated]

/-- The usable addresses, lowest first. -/
def usable : List Ipv4 :=
  (List.range' s.first s.capacity).map Ipv4.ofNat

variable {s}

/-- The usable addresses that are listed are those that count as usable. -/
theorem mem_usable {a : Ipv4} : a ∈ s.usable ↔ s.isUsable a = true := by
  have hle := s.first_le_last
  have hlt := s.last_lt
  simp only [usable, List.mem_map, List.mem_range'_1, capacity, isUsable, Bool.and_eq_true,
    decide_eq_true_eq]
  constructor
  · rintro ⟨n, ⟨hfirst, hlast⟩, rfl⟩
    rw [Ipv4.toNat_ofNat (by omega)]
    omega
  · rintro ⟨hfirst, hlast⟩
    exact ⟨a.toNat, by omega, a.ofNat_toNat⟩

variable (s)

/-- The usable addresses are listed in ascending order, each once. -/
theorem usable_ascending : s.usable.Pairwise (·.toNat < ·.toNat) := by
  have hle := s.first_le_last
  have hlt := s.last_lt
  rw [usable, List.pairwise_map]
  refine (List.pairwise_lt_range' (s := s.first) (n := s.capacity)).imp_of_mem ?_
  intro m n hm hn hmn
  rw [List.mem_range'_1, capacity] at hm hn
  rwa [Ipv4.toNat_ofNat (by omega), Ipv4.toNat_ofNat (by omega)]

end Subnet

/-! ## Claims -/

namespace Pool

variable {p : Pool} {a b : Ipv4}

@[simp] theorem subnet_insert (p : Pool) (a : Ipv4) : (p.insert a).subnet = p.subnet := by
  rw [insert]
  split <;> rfl

/-- Claimed are the new address and those that were. -/
theorem isClaimed_insert : (p.insert a).isClaimed b = true ↔ b = a ∨ p.isClaimed b = true := by
  rw [insert]
  split
  · next h =>
    refine ⟨.inr, ?_⟩
    rintro (rfl | hb)
    · exact h
    · exact hb
  · simp [isClaimed]

/-- A claim does not change the subnet of a pool. -/
@[simp] theorem subnet_claim (p : Pool) (a : Ipv4) : (p.claim a).2.subnet = p.subnet := by
  rw [claim]
  split
  · exact p.subnet_insert a
  · rfl

/-- A claim of a usable address is kept, and any other one passed over. -/
theorem isClaimed_claim : (p.claim a).2.isClaimed b = true ↔
    (b = a ∧ p.subnet.isUsable b = true) ∨ p.isClaimed b = true := by
  rw [claim]
  split
  · next h =>
    rw [isClaimed_insert]
    refine or_congr_left ⟨?_, And.left⟩
    rintro rfl
    exact ⟨rfl, h⟩
  · next h =>
    refine ⟨.inr, ?_⟩
    rintro (⟨rfl, hb⟩ | hb)
    · exact absurd hb h
    · exact hb

/-- Claims do not change the subnet of a pool, however many there are. -/
@[simp] theorem subnet_claimAll (p : Pool) (as : List Ipv4) :
    (p.claimAll as).subnet = p.subnet := by
  induction as generalizing p with
  | nil => rfl
  | cons a as ih => exact (ih (p.claim a).2).trans (p.subnet_claim a)

/-- After several claims, those addresses are claimed that were before and the usable ones asked
for. -/
theorem isClaimed_claimAll {as : List Ipv4} : (p.claimAll as).isClaimed b = true ↔
    (b ∈ as ∧ p.subnet.isUsable b = true) ∨ p.isClaimed b = true := by
  induction as generalizing p with
  | nil => simp [claimAll]
  | cons a as ih =>
    have hstep : p.claimAll (a :: as) = (p.claim a).2.claimAll as := rfl
    rw [hstep, ih, subnet_claim, isClaimed_claim, List.mem_cons]
    tauto

/-! ## Free addresses -/

/-- The usable addresses that are not claimed, lowest first. -/
def free (p : Pool) : List Ipv4 :=
  p.subnet.usable.filter fun a => !p.isClaimed a

/-- Free are the usable addresses that are not claimed. -/
theorem mem_free : a ∈ p.free ↔ p.subnet.isUsable a = true ∧ p.isClaimed a = false := by
  rw [free, List.mem_filter, Subnet.mem_usable, Bool.not_eq_true']

/-- The free addresses are listed in ascending order, each once. -/
theorem free_ascending (p : Pool) : p.free.Pairwise (·.toNat < ·.toNat) :=
  p.subnet.usable_ascending.filter _

/-- The search from an address on finds the first one of the range that is not claimed. -/
theorem firstFree_eq (p : Pool) (n count : Nat) : p.firstFree n count =
    (((List.range' n count).map Ipv4.ofNat).filter fun a => !p.isClaimed a).head? := by
  induction count generalizing n with
  | zero => rfl
  | succ count ih =>
    rw [firstFree, List.range'_succ, List.map_cons, List.filter_cons]
    cases h : p.isClaimed (Ipv4.ofNat n) with
    | true => simpa using ih (n + 1)
    | false => simp

/-- The lowest free address is the head of the list of free ones. -/
theorem lowestFree_eq (p : Pool) : p.lowestFree = p.free.head? :=
  p.firstFree_eq _ _

/-- Allocating hands out the first of the free addresses, and the others stay free. -/
theorem allocate_of_free_cons {rest : List Ipv4} (h : p.free = a :: rest) :
    ∃ q, p.allocate = some (a, q) ∧ q.subnet = p.subnet ∧ q.free = rest := by
  refine ⟨p.insert a, by rw [allocate, lowestFree_eq, h]; rfl, p.subnet_insert a, ?_⟩
  have hasc := p.free_ascending
  rw [h, List.pairwise_cons] at hasc
  have hkeep : ∀ b ∈ rest, b ≠ a := by
    rintro b hb rfl
    exact absurd (hasc.1 b hb) (lt_irrefl _)
  calc (p.insert a).free = p.free.filter (· != a) := by
        rw [free, free, List.filter_filter, subnet_insert]
        refine List.filter_congr fun b _ => ?_
        rw [Bool.eq_iff_iff]
        simp only [Bool.not_eq_true', Bool.and_eq_true, bne_iff_ne, ← Bool.not_eq_true,
          isClaimed_insert]
        tauto
    _ = rest := by
        rw [h, List.filter_cons_of_neg (by simp), List.filter_eq_self]
        exact fun b hb => bne_iff_ne.2 (hkeep b hb)

/-- No address is handed out where none is free. -/
theorem allocate_of_free_nil (h : p.free = []) : p.allocate = none := by
  rw [allocate, lowestFree_eq, h]
  rfl

/-- What stays free when addresses are claimed. -/
theorem mem_free_claimAll {as : List Ipv4} : a ∈ (p.claimAll as).free ↔ a ∈ p.free ∧ a ∉ as := by
  rw [mem_free, mem_free, subnet_claimAll, ← Bool.not_eq_true, ← Bool.not_eq_true,
    isClaimed_claimAll]
  tauto

end Pool

end TunnelMesh
