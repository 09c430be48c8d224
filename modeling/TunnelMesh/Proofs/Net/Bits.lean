import Mathlib
import TunnelMesh.Proofs.Net.Pool

/-!
# Addresses bit by bit

The length of a subnet counts bits from the most significant one on. `Ipv4.Shares` compares two
addresses in their first bits, which is to compare quotients (`Ipv4.shares_iff_div_eq`), and
`Ipv4.IsMask` describes the netmasks, each of which is one number (`Ipv4.isMask_iff`). The lowest
member of a subnet shares its first bits and has zeros after them (`Subnet.truncated_shares`,
`Subnet.bit_truncated`).
-/

namespace TunnelMesh

namespace Ipv4

/-- The bit at a position of an address, the most significant one first. -/
def bit (a : Ipv4) (i : Nat) : Bool :=
  a.toNat.testBit (31 - i)

/-- Two addresses share their first bits. -/
def Shares (n : Nat) (a b : Ipv4) : Prop :=
  ∀ i < n, a.bit i = b.bit i

/-- An address is a netmask: ones, as many as the length says, and zeros after them. -/
def IsMask (n : Nat) (m : Ipv4) : Prop :=
  ∀ i < 32, m.bit i = decide (i < n)

/-- Addresses are told by their numbers. -/
theorem toNat_injective : Function.Injective toNat := fun a b h => by
  obtain ⟨n, hn⟩ := a
  obtain ⟨k, hk⟩ := b
  obtain rfl : n = k := h
  rfl

/-- An address has no bits above the thirty-two. -/
theorem testBit_eq_false (a : Ipv4) {k : Nat} (h : 32 ≤ k) : a.toNat.testBit k = false :=
  Nat.testBit_lt_two_pow (a.lt.trans_le (Nat.pow_le_pow_right Nat.two_pos h))

namespace Shares

variable {n k : Nat} {a b c : Ipv4}

theorem refl (n : Nat) (a : Ipv4) : Shares n a a := fun _ _ => rfl

theorem symm (h : Shares n a b) : Shares n b a := fun i hi => (h i hi).symm

theorem trans (h : Shares n a b) (h' : Shares n b c) : Shares n a c := fun i hi =>
  (h i hi).trans (h' i hi)

/-- Addresses that share leading bits share fewer of them as well. -/
theorem mono (h : Shares n a b) (hk : k ≤ n) : Shares k a b := fun i hi =>
  h i (hi.trans_le hk)

end Shares

/-- To share the first bits is to have the same quotient by the power of two of the others. -/
theorem shares_iff_div_eq {n : Nat} (hn : n ≤ 32) {a b : Ipv4} :
    Shares n a b ↔ a.toNat / 2 ^ (32 - n) = b.toNat / 2 ^ (32 - n) := by
  constructor
  · intro h
    refine Nat.eq_of_testBit_eq fun k => ?_
    rw [Nat.testBit_div_two_pow, Nat.testBit_div_two_pow]
    rcases Nat.lt_or_ge (k + (32 - n)) 32 with hlt | hge
    · have hbit := h (31 - (k + (32 - n))) (by omega)
      have hback : 31 - (31 - (k + (32 - n))) = k + (32 - n) := by omega
      rwa [bit, bit, hback] at hbit
    · rw [a.testBit_eq_false hge, b.testBit_eq_false hge]
  · intro h i hi
    have hsplit : 31 - i = (n - 1 - i) + (32 - n) := by omega
    rw [bit, bit, hsplit, ← Nat.testBit_div_two_pow, ← Nat.testBit_div_two_pow, h]

/-- Addresses that share all bits are one address. -/
theorem shares_all_iff {a b : Ipv4} : Shares 32 a b ↔ a = b := by
  rw [shares_iff_div_eq le_rfl, Nat.sub_self, pow_zero, Nat.div_one, Nat.div_one]
  exact toNat_injective.eq_iff

/-- There is one netmask of each length. -/
theorem isMask_iff {n : Nat} (hn : n ≤ 32) {m : Ipv4} :
    IsMask n m ↔ m.toNat + 2 ^ (32 - n) = 2 ^ 32 := by
  have hpow : 2 ^ 32 = 2 ^ n * 2 ^ (32 - n) := by rw [← pow_add, Nat.add_sub_cancel' hn]
  have hones : (2 ^ n - 1) * 2 ^ (32 - n) + 2 ^ (32 - n) = 2 ^ 32 := by
    rw [← Nat.succ_mul, Nat.succ_eq_add_one, Nat.sub_add_cancel (Nat.two_pow_pos n), hpow]
  have hbits : ∀ k, ((2 ^ n - 1) * 2 ^ (32 - n)).testBit k = decide (32 - n ≤ k ∧ k < 32) := by
    intro k
    rw [Nat.testBit_mul_two_pow, Nat.testBit_two_pow_sub_one, ← Bool.decide_and]
    exact decide_eq_decide.2 (by omega)
  have hmask : IsMask n m ↔ m.toNat = (2 ^ n - 1) * 2 ^ (32 - n) := by
    constructor
    · intro h
      refine Nat.eq_of_testBit_eq fun k => ?_
      rw [hbits]
      rcases Nat.lt_or_ge k 32 with hlt | hge
      · have hbit := h (31 - k) (by omega)
        have hback : 31 - (31 - k) = k := by omega
        rw [bit, hback] at hbit
        rw [hbit]
        exact decide_eq_decide.2 (by omega)
      · rw [m.testBit_eq_false hge]
        exact (decide_eq_false (by omega)).symm
    · intro h i hi
      rw [bit, h, hbits]
      exact decide_eq_decide.2 (by omega)
  rw [hmask]
  omega

end Ipv4

/-! ## Members of a subnet -/

namespace Subnet

/-- The address is a member of a subnet. -/
def Covers (s : Subnet) (a : Ipv4) : Prop :=
  Ipv4.Shares s.length a s.address

/-- A subnet covers its own address. -/
theorem covers_address (s : Subnet) : s.Covers s.address :=
  .refl _ _

variable (s : Subnet)

/-- The lowest member is an address. -/
theorem toNat_truncated : s.truncated.address.toNat = s.lowest := by
  have hpos := s.size_pos
  have hle := s.lowest_add_size_le
  exact Ipv4.toNat_ofNat (by omega)

/-- The lowest member is a member. -/
theorem truncated_shares : Ipv4.Shares s.length s.truncated.address s.address := by
  rw [Ipv4.shares_iff_div_eq s.length_le, toNat_truncated, ← size_eq, lowest,
    Nat.mul_div_cancel _ s.size_pos]

/-- The lowest member has zeros behind the bits that all members share. -/
theorem bit_truncated {i : Nat} (hi : s.length ≤ i) (hlt : i < 32) :
    s.truncated.address.bit i = false := by
  rw [Ipv4.bit, toNat_truncated, lowest, size_eq, Nat.testBit_mul_two_pow,
    decide_eq_false (by omega), Bool.false_and]

/-- Two subnets have a member in common just when their addresses share the bits that the members of
the larger one share. -/
theorem exists_covers_iff {s s' : Subnet} : (∃ a, s.Covers a ∧ s'.Covers a) ↔
    Ipv4.Shares (min s.length s'.length) s.address s'.address := by
  constructor
  · rintro ⟨a, h, h'⟩
    exact (h.mono (Nat.min_le_left ..)).symm.trans (h'.mono (Nat.min_le_right ..))
  · intro h
    rcases Nat.le_total s.length s'.length with hle | hle
    · rw [Nat.min_eq_left hle] at h
      exact ⟨s'.address, h.symm, s'.covers_address⟩
    · rw [Nat.min_eq_right hle] at h
      exact ⟨s.address, s.covers_address, h⟩

end Subnet

end TunnelMesh
