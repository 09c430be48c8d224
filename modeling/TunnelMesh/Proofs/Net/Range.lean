import Mathlib
import TunnelMesh.Proofs.Net.Bits
import TunnelMesh.Proofs.Net.Claims

/-!
# The range of usable addresses

The usable addresses of a subnet are given by their two ends, which are computed from its lowest and
highest member. All numbers on the way fit into thirty-two bits (`Subnet.fitsWord`). The members are
the addresses that share the first bits, and of these the lowest one has zeros behind them and the
highest one has ones (`Subnet.Covers.eq_lowest_iff`, `Subnet.Covers.eq_highest_iff`), so the range
is told by bits alone, and how many addresses it has by the length (`Pool.ofSubnet_range`).
-/

namespace TunnelMesh

/-! ## Bits behind the first ones -/

namespace Ipv4

/-- The bits of an address behind the first ones are all the same. -/
def EndsIn (n : Nat) (b : Bool) (a : Ipv4) : Prop :=
  ∀ i, n ≤ i → i < 32 → a.bit i = b

variable {n k : Nat} {a : Ipv4}

/-- The remainder by a power of two is told by the bits below it. -/
theorem toNat_mod_two_pow_eq_iff {v : Nat} (hv : v < 2 ^ k) :
    a.toNat % 2 ^ k = v ↔ ∀ i < k, a.toNat.testBit i = v.testBit i := by
  constructor
  · rintro rfl i hi
    rw [Nat.testBit_mod_two_pow, decide_eq_true hi, Bool.true_and]
  · intro h
    refine Nat.eq_of_testBit_eq fun i => ?_
    rw [Nat.testBit_mod_two_pow]
    rcases Nat.lt_or_ge i k with hlt | hge
    · rw [decide_eq_true hlt, Bool.true_and, h i hlt]
    · have hhigh : v < 2 ^ i := hv.trans_le (Nat.pow_le_pow_right Nat.two_pos hge)
      rw [decide_eq_false hge.not_gt, Bool.false_and, Nat.testBit_lt_two_pow hhigh]

/-- The same bits, counted from the least significant one. -/
theorem endsIn_iff_testBit {b : Bool} :
    EndsIn n b a ↔ ∀ i < 32 - n, a.toNat.testBit i = b := by
  constructor
  · intro h i hi
    have hbit := h (31 - i) (by omega) (by omega)
    have hback : 31 - (31 - i) = i := by omega
    rwa [bit, hback] at hbit
  · intro h i hle hlt
    exact h (31 - i) (by omega)

/-- The bits behind the first ones are zeros just when the power of two divides the address. -/
theorem endsIn_false_iff : EndsIn n false a ↔ a.toNat % 2 ^ (32 - n) = 0 := by
  rw [endsIn_iff_testBit, toNat_mod_two_pow_eq_iff (Nat.two_pow_pos _)]
  simp only [Nat.zero_testBit]

/-- The bits behind the first ones are ones just when the remainder is as large as it can be. -/
theorem endsIn_true_iff : EndsIn n true a ↔ a.toNat % 2 ^ (32 - n) = 2 ^ (32 - n) - 1 := by
  have hlt : 2 ^ (32 - n) - 1 < 2 ^ (32 - n) := Nat.sub_lt (Nat.two_pow_pos _) Nat.one_pos
  rw [endsIn_iff_testBit, toNat_mod_two_pow_eq_iff hlt]
  refine forall₂_congr fun i hi => ?_
  rw [Nat.testBit_two_pow_sub_one, decide_eq_true hi]

end Ipv4

namespace Subnet

/-! ## Ends of the range -/

/-- The ends of the range of usable addresses are computed in thirty-two bits: no number reaches
2³², one is taken from no number below it, and the first end is not above the last. -/
structure FitsWord (s : Subnet) : Prop where
  lowest_lt : s.lowest < 2 ^ 32
  highest_lt : s.highest < 2 ^ 32
  succ_lowest_lt : s.length < 31 → s.lowest + 1 < 2 ^ 32
  one_le_highest : s.length < 31 → 1 ≤ s.highest
  first_le_last : s.first ≤ s.last

/-- Both ends of a subnet and its usable addresses have 32 bits. -/
theorem fitsWord (s : Subnet) : s.FitsWord := by
  have hpos := s.size_pos
  have hle := s.lowest_add_size_le
  have hhighest : s.highest = s.lowest + (s.size - 1) := rfl
  exact {
    lowest_lt := by omega
    highest_lt := by omega
    succ_lowest_lt := fun hlength => by
      have hfour := s.four_le_size hlength
      omega
    one_le_highest := fun hlength => by
      have hfour := s.four_le_size hlength
      omega
    first_le_last := s.first_le_last }

/-! ## Members by their bits -/

variable {s : Subnet} {a : Ipv4}

/-- The members are the addresses from the lowest to the highest one. -/
theorem covers_iff : s.Covers a ↔ s.lowest ≤ a.toNat ∧ a.toNat ≤ s.highest := by
  have hpos := s.size_pos
  have hquotient : s.Covers a ↔ a.toNat / s.size = s.address.toNat / s.size :=
    Ipv4.shares_iff_div_eq s.length_le
  rw [hquotient, Nat.div_eq_iff hpos, highest, lowest]
  omega

/-- A member is as far from the lowest one as its remainder by the size says. -/
theorem Covers.toNat_eq (h : s.Covers a) : a.toNat = s.lowest + a.toNat % s.size := by
  have hquotient : a.toNat / s.size = s.address.toNat / s.size :=
    (Ipv4.shares_iff_div_eq s.length_le).1 h
  rw [lowest, ← hquotient, Nat.div_add_mod']

/-- Of the members, the lowest one has zeros behind the bits that all members share. -/
theorem Covers.eq_lowest_iff (h : s.Covers a) :
    a.toNat = s.lowest ↔ a.EndsIn s.length false := by
  rw [Ipv4.endsIn_false_iff, ← size_eq]
  have hsplit := h.toNat_eq
  omega

/-- Of the members, the highest one has ones behind the bits that all members share. -/
theorem Covers.eq_highest_iff (h : s.Covers a) :
    a.toNat = s.highest ↔ a.EndsIn s.length true := by
  rw [Ipv4.endsIn_true_iff, ← size_eq, highest]
  have hsplit := h.toNat_eq
  omega

/-- Usable are the members; of a subnet with more than two, all but the lowest and the highest. -/
theorem isUsable_iff : s.isUsable a = true ↔
    s.Covers a ∧ (s.length < 31 → ¬ a.EndsIn s.length false ∧ ¬ a.EndsIn s.length true) := by
  have hrange : s.isUsable a = true ↔ s.first ≤ a.toNat ∧ a.toNat ≤ s.last := by
    rw [isUsable, Bool.and_eq_true, decide_eq_true_eq, decide_eq_true_eq]
  rw [hrange]
  rcases Nat.lt_or_ge s.length 31 with hlt | hge
  · have hone := s.fitsWord.one_le_highest hlt
    rw [first_of_lt hlt, last_of_lt hlt]
    constructor
    · rintro ⟨hfirst, hlast⟩
      have hmember : s.Covers a := covers_iff.2 ⟨by omega, by omega⟩
      refine ⟨hmember, fun _ => ?_⟩
      rw [← hmember.eq_lowest_iff, ← hmember.eq_highest_iff]
      omega
    · rintro ⟨hmember, hends⟩
      have hinner := hends hlt
      rw [← hmember.eq_lowest_iff, ← hmember.eq_highest_iff] at hinner
      have hbounds := covers_iff.1 hmember
      omega
  · rw [first_of_le hge, last_of_le hge, ← covers_iff]
    exact ⟨fun hmember => ⟨hmember, fun hlt => absurd hlt hge.not_gt⟩, And.left⟩

end Subnet

namespace Pool

/-- The range of a new pool: it is computed without overflow, it has the addresses that share the
first bits with the subnet's, but for long subnets those of zeros and of ones behind them, and its
number of addresses is told by the length. -/
theorem ofSubnet_range (s : Subnet) :
    (ofSubnet s).subnet.FitsWord ∧
      (∀ a, (ofSubnet s).subnet.isUsable a = true ↔ Ipv4.Shares s.length a s.address ∧
        (s.length < 31 → ¬ a.EndsIn s.length false ∧ ¬ a.EndsIn s.length true)) ∧
      (ofSubnet s).availableCount = {a | (ofSubnet s).subnet.isUsable a = true}.ncard ∧
      (ofSubnet s).availableCount =
        if s.length < 31 then 2 ^ (32 - s.length) - 2 else if s.length = 31 then 2 else 1 := by
  have hcount : (ofSubnet s).availableCount = s.truncated.capacity := rfl
  refine ⟨s.truncated.fitsWord, fun a => ?_, ?_, ?_⟩
  · rw [ofSubnet, Subnet.isUsable_truncated, Subnet.isUsable_iff, Subnet.Covers]
  · rw [hcount, ← Subnet.ncard_usable, ofSubnet]
  · rw [hcount, Subnet.capacity_truncated, Subnet.capacity_eq, Subnet.size_eq]
    have hlength := s.length_le
    rcases (by omega : s.length < 31 ∨ s.length = 31 ∨ s.length = 32) with hlt | hone | hall
    · rw [if_pos hlt, if_pos hlt]
    · rw [hone]
      rfl
    · rw [hall]
      rfl

/-- The largest subnet and a subnet of one address, at the two ends of all addresses. -/
example : (⟨Ipv4.ofOctets 0 0 0 0, 0, by decide⟩ : Subnet).first = 1 ∧
    (⟨Ipv4.ofOctets 0 0 0 0, 0, by decide⟩ : Subnet).last = 4294967294 ∧
    (⟨Ipv4.ofOctets 255 255 255 255, 32, by decide⟩ : Subnet).last = 4294967295 := by
  decide

end Pool

end TunnelMesh
