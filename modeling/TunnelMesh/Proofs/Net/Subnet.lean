import Mathlib
import TunnelMesh.Mesh.Resolve
import TunnelMesh.Proofs.Mesh.Defaults
import TunnelMesh.Proofs.Text.Decimal

/-!
# Subnets that texts denote

The readers of addresses and subnets accept a grammar that is stated here without them: groups of
digits between points (`Ipv4.Dotted`), and such an address with a length after it
(`Subnet.Cidr`). `Ipv4.parse?_eq_some` and `Subnet.parse?_eq_some` say that they accept all of it
and nothing else, and `Subnet.maskLength?_eq_some` which addresses are netmasks. The address of a
host names a subnet as well (`Subnet.WrittenAs`), and the subnet of a topology is the one that its
address and its netmask denote, or those of the defaults where it leaves them open
(`Topology.HasSubnet`).
-/

namespace TunnelMesh

/-! ## Numbers -/

/-- At least one digit and at most `most` of them, for the number that they are in base ten. -/
structure Decimal.IsNumeral (most : Nat) (ds : List Char) (n : Nat) : Prop where
  ne_nil : ds ≠ []
  isDigit : ∀ c ∈ ds, c.isDigit = true
  length_le : ds.length ≤ most
  value_eq : Nat.ofDigitChars 10 ds 0 = n

namespace Decimal

variable {ds : List Char} {n most : Nat}

/-- A numeral is what is read as a number, if it is not too long. -/
theorem isNumeral_iff : IsNumeral most ds n ↔ ds.length ≤ most ∧ natural? ds = some n := by
  rw [natural?, Option.ite_none_right_eq_some, List.all_eq_true, Option.some.injEq]
  constructor
  · rintro ⟨hne, hdigit, hlength, hvalue⟩
    exact ⟨hlength, ⟨hne, hdigit⟩, hvalue⟩
  · rintro ⟨hlength, ⟨hne, hdigit⟩, hvalue⟩
    exact ⟨hne, hdigit, hlength, hvalue⟩

/-- A number that is not too long is written as a numeral. -/
theorem isNumeral_digits (hmost : 0 < most) (hn : n < 10 ^ most) : IsNumeral most (digits n) n :=
  isNumeral_iff.2 ⟨(Nat.length_toDigits_le_iff (by decide) hmost).2 hn, natural?_digits n⟩

/-- What is no digit does not stand in a numeral. -/
theorem IsNumeral.not_mem (h : IsNumeral most ds n) {c : Char} (hc : c.isDigit = false) :
    c ∉ ds := fun hmem => by
  rw [h.isDigit c hmem] at hc
  cases hc

end Decimal

/-! ## Addresses -/

namespace Ipv4

/-- One to three digits for a number below 256. -/
def IsOctet (ds : List Char) (n : Nat) : Prop :=
  Decimal.IsNumeral 3 ds n ∧ n < 256

/-- Characters that are four groups of digits between points, for the octets of an address, the most
significant one first. -/
inductive Dotted : List Char → List (List Char) → Ipv4 → Prop
  | mk {ds₁ ds₂ ds₃ ds₄ : List Char} {n₁ n₂ n₃ n₄ : Nat} {a : Ipv4} :
      IsOctet ds₁ n₁ → IsOctet ds₂ n₂ → IsOctet ds₃ n₃ → IsOctet ds₄ n₄ →
        a.toNat = n₁ * 2 ^ 24 + n₂ * 2 ^ 16 + n₃ * 2 ^ 8 + n₄ →
          Dotted (['.'].intercalate [ds₁, ds₂, ds₃, ds₄]) [ds₁, ds₂, ds₃, ds₄] a

/-- Groups of digits without leading zeros: only a single zero stands at the front of a group. -/
def Plain (groups : List (List Char)) : Prop :=
  ∀ ds ∈ groups, ds.length = 1 ∨ ds.head? ≠ some '0'

/-- The reader that looks for leading zeros finds them. -/
theorem all_isPlain_iff {groups : List (List Char)} :
    groups.all isPlain = true ↔ Plain groups := by
  simp only [List.all_eq_true, isPlain, Bool.or_eq_true, beq_iff_eq, bne_iff_ne, Plain]

/-- An address is put together from its octets. -/
theorem ofOctets_eq_iff {n₁ n₂ n₃ n₄ : Nat} {a : Ipv4} (h₁ : n₁ < 256) (h₂ : n₂ < 256)
    (h₃ : n₃ < 256) (h₄ : n₄ < 256) :
    ofOctets n₁ n₂ n₃ n₄ = a ↔ a.toNat = n₁ * 2 ^ 24 + n₂ * 2 ^ 16 + n₃ * 2 ^ 8 + n₄ := by
  obtain ⟨n, hn⟩ := a
  simp only [ofOctets, ofNat, mk.injEq]
  omega

/-- A group is read as an octet just when it is one. -/
theorem octet?_eq_some {ds : List Char} {n : Nat} : octet? ds = some n ↔ IsOctet ds n := by
  rw [IsOctet, Decimal.isNumeral_iff, octet?]
  by_cases hlength : ds.length ≤ 3
  · cases hnat : Decimal.natural? ds with
    | none => simp
    | some m =>
      by_cases hlt : m < 256
      · simp only [hlength, hlt, if_true, Option.some.injEq, true_and]
        exact ⟨fun heq => ⟨heq, heq ▸ hlt⟩, And.left⟩
      · simp only [hlength, hlt, if_true, if_false, Option.some.injEq, reduceCtorEq, true_and,
          false_iff, not_and]
        rintro rfl
        exact hlt
  · simp [hlength]

variable {cs : List Char} {a : Ipv4} {groups : List (List Char)}

/-- The groups of an address are what stands between its points. -/
theorem Dotted.splitOn_eq (h : Dotted cs groups a) : cs.splitOn '.' = groups := by
  obtain ⟨h₁, h₂, h₃, h₄, -⟩ := h
  refine List.splitOn_intercalate '.' (fun ds hds => ?_) (List.cons_ne_nil _ _)
  simp only [List.mem_cons, List.not_mem_nil, or_false] at hds
  rcases hds with rfl | rfl | rfl | rfl
  · exact h₁.1.not_mem (by decide)
  · exact h₂.1.not_mem (by decide)
  · exact h₃.1.not_mem (by decide)
  · exact h₄.1.not_mem (by decide)

/-- Characters other than digits and points do not stand in an address. -/
theorem Dotted.not_mem (h : Dotted cs groups a) {c : Char} (hdigit : c.isDigit = false)
    (hpoint : c ≠ '.') : c ∉ cs := by
  obtain ⟨h₁, h₂, h₃, h₄, -⟩ := h
  simp [List.intercalate, List.intersperse, hpoint, h₁.1.not_mem hdigit, h₂.1.not_mem hdigit,
    h₃.1.not_mem hdigit, h₄.1.not_mem hdigit]

/-- The one reader takes groups with leading zeros. -/
theorem parseLoose?_eq_some : parseLoose? cs = some a ↔ ∃ groups, Dotted cs groups a := by
  constructor
  · intro h
    have hjoin : ['.'].intercalate (cs.splitOn '.') = cs := List.intercalate_splitOn '.'
    rw [parseLoose?] at h
    split at h
    · next ds₁ ds₂ ds₃ ds₄ hsplit =>
      simp only [Option.bind_eq_bind, Option.bind_eq_some_iff, octet?_eq_some, Option.pure_def,
        Option.some.injEq] at h
      obtain ⟨n₁, h₁, n₂, h₂, n₃, h₃, n₄, h₄, hoctets⟩ := h
      rw [hsplit] at hjoin
      have hsum := (ofOctets_eq_iff h₁.2 h₂.2 h₃.2 h₄.2).1 hoctets
      exact ⟨[ds₁, ds₂, ds₃, ds₄], hjoin ▸ Dotted.mk h₁ h₂ h₃ h₄ hsum⟩
    · cases h
  · rintro ⟨groups, h⟩
    have hsplit := h.splitOn_eq
    obtain ⟨h₁, h₂, h₃, h₄, hsum⟩ := h
    have hoctets := (ofOctets_eq_iff h₁.2 h₂.2 h₃.2 h₄.2).2 hsum
    rw [← octet?_eq_some] at h₁ h₂ h₃ h₄
    rw [parseLoose?, hsplit]
    simp [h₁, h₂, h₃, h₄, hoctets]

/-- The other reader takes no leading zeros. -/
theorem parse?_eq_some : parse? cs = some a ↔
    ∃ groups, Dotted cs groups a ∧ Plain groups := by
  rw [parse?, Option.ite_none_right_eq_some, all_isPlain_iff, parseLoose?_eq_some]
  constructor
  · rintro ⟨hplain, groups, h⟩
    exact ⟨groups, h, h.splitOn_eq ▸ hplain⟩
  · rintro ⟨groups, h, hplain⟩
    exact ⟨h.splitOn_eq ▸ hplain, groups, h⟩

end Ipv4

/-! ## Subnets -/

/-- The characters of a text with a length behind it. -/
theorem Text.toList_append_length (t : String) (ds : List Char) :
    (t ++ "/" ++ String.ofList ds).toList = t.toList ++ '/' :: ds := by
  rw [String.toList_append, String.toList_append, String.toList_ofList, String.toList_ofList,
    List.append_assoc, List.singleton_append]

namespace Subnet

/-- Characters that are an address, a slash, and one or two digits for the length of a subnet. -/
def Cidr (cs : List Char) (s : Subnet) : Prop :=
  ∃ front groups back, cs = front ++ '/' :: back ∧ Ipv4.Dotted front groups s.address ∧
    Decimal.IsNumeral 2 back s.length

variable {cs : List Char} {s : Subnet} {m : Ipv4}

/-- A slash stands in a text with a length. -/
theorem Cidr.slash_mem (h : Cidr cs s) : '/' ∈ cs := by
  obtain ⟨front, groups, back, rfl, -⟩ := h
  simp

/-- Digits are read as a length just when they are one that a subnet can have. -/
theorem length?_eq_some {ds : List Char} {n : { n : Nat // n ≤ 32 }} :
    length? ds = some n ↔ Decimal.IsNumeral 2 ds n.val := by
  obtain ⟨n, hn⟩ := n
  rw [Decimal.isNumeral_iff, length?]
  by_cases hlength : ds.length ≤ 2
  · cases hnat : Decimal.natural? ds with
    | none => simp
    | some k =>
      by_cases hle : k ≤ 32
      · simp [hlength, hle]
      · simp only [hlength, hle, if_true, dite_false, Option.some.injEq, reduceCtorEq, true_and,
          false_iff]
        rintro rfl
        exact hle hn
  · simp [hlength]

/-- The reader of subnets takes all of the grammar, and nothing else. -/
theorem parse?_eq_some : parse? cs = some s ↔ Cidr cs s := by
  constructor
  · intro h
    have hjoin : ['/'].intercalate (cs.splitOn '/') = cs := List.intercalate_splitOn '/'
    rw [parse?] at h
    split at h
    · next front back hsplit =>
      simp only [Option.bind_eq_bind, Option.bind_eq_some_iff, Ipv4.parseLoose?_eq_some,
        length?_eq_some, Option.pure_def, Option.some.injEq] at h
      obtain ⟨a, ⟨groups, ha⟩, n, hn, rfl⟩ := h
      rw [hsplit] at hjoin
      exact ⟨front, groups, back, by simpa [List.intercalate] using hjoin.symm, ha, hn⟩
    · cases h
  · rintro ⟨front, groups, back, rfl, ha, hn⟩
    have hfront : '/' ∉ front := ha.not_mem (by decide) (by decide)
    have hback : '/' ∉ back := hn.not_mem (by decide)
    have hlength : length? back = some ⟨s.length, s.length_le⟩ := length?_eq_some.2 hn
    rw [parse?, List.splitOn_append_cons_self_of_not_mem hfront, List.splitOn_eq_singleton hback]
    simp [Ipv4.parseLoose?_eq_some.2 ⟨groups, ha⟩, hlength]

/-- A netmask lacks the size of its subnets. -/
theorem mask_add (n : Nat) : mask n + 2 ^ (32 - n) = 2 ^ 32 :=
  Nat.sub_add_cancel (Nat.pow_le_pow_right (by decide) (Nat.sub_le 32 n))

/-- Different lengths have different netmasks. -/
theorem mask_injective {n k : Nat} (hn : n ≤ 32) (hk : k ≤ 32) (h : mask n = mask k) : n = k := by
  have hn' := mask_add n
  have hk' := mask_add k
  have hpow : 2 ^ (32 - n) = 2 ^ (32 - k) := by omega
  have := Nat.pow_right_injective (le_refl 2) hpow
  omega

/-- A netmask is as many ones as the subnet's length, and zeros after them. -/
theorem maskLength?_eq_some {n : { n : Nat // n ≤ 32 }} :
    maskLength? m = some n ↔ m.toNat + 2 ^ (32 - n.val) = 2 ^ 32 := by
  obtain ⟨n, hn⟩ := n
  have hmask : m.toNat + 2 ^ (32 - n) = 2 ^ 32 ↔ mask n = m.toNat := by
    have := mask_add n
    omega
  rw [hmask, maskLength?, Option.bind_eq_some_iff]
  constructor
  · rintro ⟨k, hk, hlength⟩
    split at hlength
    · obtain rfl : k = n := by simpa using hlength
      simpa using List.find?_some hk
    · cases hlength
  · intro heq
    refine ⟨n, List.find?_range_eq_some.2 ⟨by simpa using heq, by simp; omega, ?_⟩, by simp [hn]⟩
    intro k hlt
    simp only [Bool.not_eq_true', beq_eq_false_iff_ne]
    exact fun hk => hlt.ne (mask_injective (by omega) hn (hk.trans heq.symm))

/-- An address and a netmask make the subnet of as many bits as the netmask has ones. -/
theorem ofMask?_eq_some {a : Ipv4} :
    ofMask? a m = some s ↔ a = s.address ∧ m.toNat + 2 ^ (32 - s.length) = 2 ^ 32 := by
  have hlength := maskLength?_eq_some (m := m) (n := ⟨s.length, s.length_le⟩)
  rw [← hlength, ofMask?, Option.map_eq_some_iff]
  obtain ⟨address, n, hn⟩ := s
  constructor
  · rintro ⟨⟨k, hk⟩, hmask, heq⟩
    simp only [mk.injEq] at heq
    obtain ⟨rfl, rfl⟩ := heq
    exact ⟨rfl, hmask⟩
  · rintro ⟨rfl, hmask⟩
    exact ⟨_, hmask, rfl⟩

/-- The subnet, named by its lowest member, that an address and a netmask denote. Either the address
has a length, and then the netmask does not count, or it has none and the netmask's ones all stand
before its zeros. Octets with leading zeros are allowed only where a length follows. -/
inductive DenotedBy (address netmask : Option String) : Subnet → Prop
  | cidr {text : String} {s : Subnet} : Text.shown address = some text → Cidr text.toList s →
      DenotedBy address netmask s.truncated
  | masked {text maskText : String} {groups maskGroups : List (List Char)} {m : Ipv4} {s : Subnet} :
      Text.shown address = some text → Text.shown netmask = some maskText →
      Ipv4.Dotted text.toList groups s.address → Ipv4.Plain groups →
      Ipv4.Dotted maskText.toList maskGroups m → Ipv4.Plain maskGroups →
      m.toNat + 2 ^ (32 - s.length) = 2 ^ 32 → DenotedBy address netmask s.truncated

/-- Blanks around the two texts do not count. -/
theorem denotedBy_iff_of_shown_eq {address address' netmask netmask' : Option String}
    (haddress : Text.shown address = Text.shown address')
    (hnetmask : Text.shown netmask = Text.shown netmask') {s : Subnet} :
    DenotedBy address netmask s ↔ DenotedBy address' netmask' s := by
  have hone : ∀ {address address' netmask netmask' : Option String},
      Text.shown address = Text.shown address' → Text.shown netmask = Text.shown netmask' →
        DenotedBy address netmask s → DenotedBy address' netmask' s := by
    intro address address' netmask netmask' haddress hnetmask hdenoted
    cases hdenoted with
    | cidr htext hcidr => exact .cidr (haddress ▸ htext) hcidr
    | masked htext hmask hdotted hplain hmaskDotted hmaskPlain hlength =>
      exact .masked (haddress ▸ htext) (hnetmask ▸ hmask) hdotted hplain hmaskDotted hmaskPlain
        hlength
  exact ⟨hone haddress hnetmask, hone haddress.symm hnetmask.symm⟩

end Subnet

/-! ## Addresses of hosts -/

namespace Subnet

/-- The subnet of one address. -/
def single (a : Ipv4) : Subnet where
  address := a
  length := 32
  length_le := le_rfl

/-- Characters name the members of a subnet: as an address with a length, or as an address alone.
Octets with leading zeros are allowed only where a length follows. -/
inductive WrittenAs : Subnet → List Char → Prop
  | alone {cs : List Char} {groups : List (List Char)} {a : Ipv4} : Ipv4.Dotted cs groups a →
      Ipv4.Plain groups → WrittenAs (single a) cs
  | cidr {cs : List Char} {s : Subnet} : Cidr cs s → WrittenAs s cs

/-- A slash stands in no address. -/
theorem Cidr.not_dotted {cs : List Char} {s : Subnet} {groups : List (List Char)} {a : Ipv4}
    (h : Cidr cs s) : ¬ Ipv4.Dotted cs groups a := fun hdotted =>
  hdotted.not_mem (by decide) (by decide) h.slash_mem

/-- Characters that are read as an address name it alone. -/
theorem writtenAs_of_parse? {cs : List Char} {a : Ipv4} (h : Ipv4.parse? cs = some a) :
    (single a).WrittenAs cs := by
  obtain ⟨groups, hdotted, hplain⟩ := Ipv4.parse?_eq_some.1 h
  exact .alone hdotted hplain

namespace WrittenAs

variable {s s' : Subnet} {cs : List Char}

/-- Characters name one subnet at most. -/
theorem unique (h : s.WrittenAs cs) (h' : s'.WrittenAs cs) : s = s' := by
  cases h with
  | alone hdotted hplain =>
    cases h' with
    | alone hdotted' hplain' =>
      have hread := Ipv4.parse?_eq_some.2 ⟨_, hdotted, hplain⟩
      have hread' := Ipv4.parse?_eq_some.2 ⟨_, hdotted', hplain'⟩
      rw [Option.some.inj (hread.symm.trans hread')]
    | cidr hcidr' => exact absurd hdotted hcidr'.not_dotted
  | cidr hcidr =>
    cases h' with
    | alone hdotted' _ => exact absurd hdotted' hcidr.not_dotted
    | cidr hcidr' =>
      exact Option.some.inj ((parse?_eq_some.2 hcidr).symm.trans (parse?_eq_some.2 hcidr'))

/-- A text that names a subnet is not blank. -/
theorem not_isBlankText {text : String} (h : s.WrittenAs (Text.trim text).toList) :
    Text.isBlankText text = false := by
  have hdot : ∀ {cs groups a}, Ipv4.Dotted cs groups a → '.' ∈ cs := by
    rintro _ _ _ ⟨-, -, -, -⟩
    simp [List.intercalate, List.intersperse]
  refine Text.isBlankText_of_mem_trim ?_ (by decide : Text.isBlank '.' = false)
  cases h with
  | alone hdotted _ => exact hdot hdotted
  | cidr hcidr =>
    obtain ⟨front, groups, back, heq, hdotted, -⟩ := hcidr
    rw [heq]
    exact List.mem_append_left _ (hdot hdotted)

end WrittenAs

end Subnet

/-- The address of a host is read from texts that name a subnet. -/
theorem Ipv4.ofHostText?_eq_some {text : String} {a : Ipv4} : ofHostText? text = some a ↔
    ∃ b : Subnet, b.WrittenAs (Text.trim text).toList ∧ b.address = a := by
  rw [ofHostText?, ← Text.toList_trim]
  constructor
  · intro h
    cases hread : parse? (Text.trim text).toList with
    | some a' =>
      simp only [hread, Option.some.injEq] at h
      exact ⟨_, Subnet.writtenAs_of_parse? hread, h⟩
    | none =>
      simp only [hread, Option.map_eq_some_iff] at h
      obtain ⟨b, hb, rfl⟩ := h
      exact ⟨b, .cidr (Subnet.parse?_eq_some.1 hb), rfl⟩
  · rintro ⟨b, hb, rfl⟩
    cases hb with
    | alone hdotted hplain => simp only [parse?_eq_some.2 ⟨_, hdotted, hplain⟩, Subnet.single]
    | cidr hcidr =>
      cases hread : parse? (Text.trim text).toList with
      | some a =>
        obtain ⟨groups, hdotted, -⟩ := parse?_eq_some.1 hread
        exact absurd hdotted hcidr.not_dotted
      | none => simp only [Subnet.parse?_eq_some.2 hcidr, Option.map_some]

/-! ## Pools -/

namespace Pool

variable {text netmask : String} {p : Pool}

/-- A pool is made of a text that is a subnet. -/
theorem ofCidr_eq_ok (htrim : Text.trim text = text) :
    ofCidr text = .ok p ↔ ∃ s, Subnet.Cidr text.toList s ∧ p = ofSubnet s := by
  have hchars : Text.trimChars text.toList = text.toList := by rw [← Text.toList_trim, htrim]
  simp only [ofCidr, hchars, ← Subnet.parse?_eq_some]
  cases Subnet.parse? text.toList <;> simp [eq_comm]

/-- A pool is made of two texts that are read as an address and a netmask. -/
theorem ofAddressAndNetmask_eq_ok_iff_parse? (htrim : Text.trim text = text)
    (hmask : Text.trim netmask = netmask) : ofAddressAndNetmask text netmask = .ok p ↔
      ∃ a m s, Ipv4.parse? text.toList = some a ∧ Ipv4.parse? netmask.toList = some m ∧
        Subnet.ofMask? a m = some s ∧ p = ofSubnet s := by
  have hchars : Text.trimChars text.toList = text.toList := by rw [← Text.toList_trim, htrim]
  have hmaskChars : Text.trimChars netmask.toList = netmask.toList := by
    rw [← Text.toList_trim, hmask]
  simp only [ofAddressAndNetmask, hchars, hmaskChars]
  cases Ipv4.parse? text.toList with
  | none => simp
  | some a =>
    cases Ipv4.parse? netmask.toList with
    | none => simp
    | some m => cases hsubnet : Subnet.ofMask? a m <;> simp [hsubnet, eq_comm]

/-- A pool is made of two texts that are an address and a netmask of ones before zeros. -/
theorem ofAddressAndNetmask_eq_ok (htrim : Text.trim text = text)
    (hmask : Text.trim netmask = netmask) : ofAddressAndNetmask text netmask = .ok p ↔
      ∃ (s : Subnet) (m : Ipv4) (groups maskGroups : List (List Char)),
        Ipv4.Dotted text.toList groups s.address ∧ Ipv4.Plain groups ∧
          Ipv4.Dotted netmask.toList maskGroups m ∧ Ipv4.Plain maskGroups ∧
            m.toNat + 2 ^ (32 - s.length) = 2 ^ 32 ∧ p = ofSubnet s := by
  simp only [ofAddressAndNetmask_eq_ok_iff_parse? htrim hmask, Ipv4.parse?_eq_some,
    Subnet.ofMask?_eq_some]
  constructor
  · rintro ⟨_, m, s, ⟨groups, hdotted, hplain⟩, ⟨maskGroups, hmaskDotted, hmaskPlain⟩,
      ⟨rfl, hlength⟩, hp⟩
    exact ⟨s, m, groups, maskGroups, hdotted, hplain, hmaskDotted, hmaskPlain, hlength, hp⟩
  · rintro ⟨s, m, groups, maskGroups, hdotted, hplain, hmaskDotted, hmaskPlain, hlength, hp⟩
    exact ⟨_, m, s, ⟨groups, hdotted, hplain⟩, ⟨maskGroups, hmaskDotted, hmaskPlain⟩,
      ⟨rfl, hlength⟩, hp⟩

end Pool

/-- When the pool of a topology can be made, and that it is the one of the subnet denoted. -/
theorem Topology.pool_eq_ok {t : Topology} {p : Pool} : t.pool = .ok p ↔
    ∃ s, Subnet.DenotedBy t.address t.netmask s ∧ p = ⟨s, []⟩ := by
  rw [pool, Text.nonBlank_eq_shown, Text.nonBlank_eq_shown]
  constructor
  · intro h
    split at h
    · cases h
    · next text haddress =>
      have htrim := Text.trim_of_shown haddress
      split at h
      · obtain ⟨s, hs, rfl⟩ := (Pool.ofCidr_eq_ok htrim).1 h
        exact ⟨_, .cidr haddress hs, rfl⟩
      · split at h
        · cases h
        · next maskText hnetmask =>
          obtain ⟨s, m, groups, maskGroups, hdotted, hplain, hmask, hmaskPlain, hlength, rfl⟩ :=
            (Pool.ofAddressAndNetmask_eq_ok htrim (Text.trim_of_shown hnetmask)).1 h
          exact ⟨_, .masked haddress hnetmask hdotted hplain hmask hmaskPlain hlength, rfl⟩
  · rintro ⟨s, hs, rfl⟩
    cases hs with
    | @cidr text s haddress hs =>
      have hslash : text.toList.contains '/' = true := by simpa using hs.slash_mem
      simp only [haddress, if_pos hslash]
      rw [Pool.ofCidr_eq_ok (Text.trim_of_shown haddress)]
      exact ⟨s, hs, rfl⟩
    | @masked text maskText groups maskGroups m s haddress hnetmask hdotted hplain hmask hmaskPlain
        hlength =>
      have hslash : ¬ text.toList.contains '/' = true := by
        simpa using hdotted.not_mem (c := '/') (by decide) (by decide)
      simp only [haddress, hnetmask, if_neg hslash]
      rw [Pool.ofAddressAndNetmask_eq_ok (Text.trim_of_shown haddress)
        (Text.trim_of_shown hnetmask)]
      exact ⟨s, m, groups, maskGroups, hdotted, hplain, hmask, hmaskPlain, hlength, rfl⟩

/-- Why the pool of a topology cannot be made: there is no address, or it denotes no subnet. -/
theorem Topology.pool_eq_error {t : Topology} {e : MeshError} (h : t.pool = .error e) :
    (Text.IsOpen t.address ∧ e = .missingSubnet) ∨
      ¬ Text.IsOpen t.address ∧ ∃ defect, e = .invalidSubnet defect := by
  rw [pool] at h
  rw [Text.isOpen_iff]
  cases haddress : Text.nonBlank t.address with
  | none =>
    rw [haddress] at h
    cases h
    exact .inl ⟨rfl, rfl⟩
  | some text =>
    refine .inr ⟨Option.some_ne_none text, ?_⟩
    simp only [haddress, Pool.ofCidr, Pool.ofAddressAndNetmask] at h
    repeat' split at h
    all_goals cases h
    all_goals exact ⟨_, rfl⟩

/-! ## Subnets of topologies -/

namespace Topology

/-- The subnet of a topology, where the address and the netmask of the defaults stand in for those
that it leaves open. -/
def HasSubnet (t : Topology) (d : Defaults) (s : Subnet) : Prop :=
  Subnet.DenotedBy (if Text.IsOpen t.address then d.address else t.address)
    (if Text.IsOpen t.netmask then d.netmask else t.netmask) s

/-- A topology has a subnet just when its pool can be made. -/
theorem pool_withDefaultSubnet_eq_ok {t : Topology} {d : Defaults} {p : Pool} :
    (t.withDefaultSubnet d).pool = .ok p ↔ ∃ s, t.HasSubnet d s ∧ p = ⟨s, []⟩ := by
  simp only [pool_eq_ok, HasSubnet, ← Subnet.denotedBy_iff_of_shown_eq
    (shown_orDefault t.address d.address) (shown_orDefault t.netmask d.netmask)]
  rfl

end Topology

end TunnelMesh
