import Mathlib
import TunnelMesh.Proofs.Mesh.Resolution
import TunnelMesh.Proofs.Net.Bits
import TunnelMesh.Proofs.Net.Subnet

/-!
# The ways of giving a subnet

A subnet is given as `address/length`, or as an address and the netmask of that length. Whatever
blanks stand around the texts, both make the same new pool, and a mesh whose topology gives its
subnet in one way is compiled as one that gives it in the other (`Mesh.subnetForms_agree`). A
netmask is looked at only where the address gives no length.
-/

namespace TunnelMesh

/-! ## Texts -/

namespace Subnet

/-- The text of a subnet is an address with a length. -/
theorem cidr_text (s : Subnet) : Cidr s.text.toList s := by
  obtain ⟨groups, hdotted, -⟩ := Ipv4.parse?_eq_some.1 (Ipv4.parse?_chars s.address)
  have hlength : Decimal.IsNumeral 2 (Decimal.digits s.length) s.length :=
    Decimal.isNumeral_digits (by decide) (s.length_le.trans_lt (by decide))
  refine ⟨s.address.chars, groups, Decimal.digits s.length, ?_, hdotted, hlength⟩
  rw [text, Decimal.text, Text.toList_append_length, Ipv4.toList_text]

/-- An address and a netmask of a length are a subnet of that length. -/
theorem ofMask?_of_isMask {s : Subnet} {m : Ipv4} (hm : Ipv4.IsMask s.length m) :
    ofMask? s.address m = some s :=
  ofMask?_eq_some.2 ⟨rfl, (Ipv4.isMask_iff s.length_le).1 hm⟩

/-- An address that is no netmask makes no subnet. -/
theorem ofMask?_eq_none {m : Ipv4} (hm : ∀ n ≤ 32, ¬ Ipv4.IsMask n m) (a : Ipv4) :
    ofMask? a m = none := by
  cases hs : ofMask? a m with
  | none => rfl
  | some s =>
    obtain ⟨-, hsum⟩ := ofMask?_eq_some.1 hs
    exact absurd ((Ipv4.isMask_iff s.length_le).2 hsum) (hm s.length s.length_le)

end Subnet

/-- An address is read from its text, whatever blanks stand around it. -/
theorem Ipv4.parse?_of_trim {text : String} {a : Ipv4} (h : Text.trim text = a.text) :
    parse? (Text.trimChars text.toList) = some a := by
  rw [← Text.toList_trim, h, toList_text, parse?_chars]

/-! ## New pools -/

namespace Pool

/-- A pool of a subnet in which nothing is claimed. The subnet is named by its lowest member, which
has zeros behind the bits that all members share. -/
structure IsNewFor (p : Pool) (s : Subnet) : Prop where
  length_eq : p.subnet.length = s.length
  shares : Ipv4.Shares s.length p.subnet.address s.address
  bit_eq_false : ∀ i, s.length ≤ i → i < 32 → p.subnet.address.bit i = false
  isUsable_eq : ∀ a, p.subnet.isUsable a = s.isUsable a
  claimed_eq : p.claimed = []

/-- The pool that is made of a subnet is new for it. -/
theorem isNewFor_ofSubnet (s : Subnet) : (ofSubnet s).IsNewFor s where
  length_eq := rfl
  shares := s.truncated_shares
  bit_eq_false _ := s.bit_truncated
  isUsable_eq := s.isUsable_truncated
  claimed_eq := rfl

variable {s : Subnet} {m : Ipv4} {cidr address netmask : String}

/-- The text of a subnet gives its new pool, with any blanks around it. -/
theorem ofCidr_of_trim (hcidr : Text.trim cidr = s.text) : ofCidr cidr = .ok (ofSubnet s) := by
  have hparse : Subnet.parse? (Text.trimChars cidr.toList) = some s := by
    rw [← Text.toList_trim, hcidr]
    exact Subnet.parse?_eq_some.2 s.cidr_text
  rw [ofCidr, hparse]

/-- The texts of an address and a mask give the new pool of their subnet, with any blanks around
them. -/
theorem ofAddressAndNetmask_of_trim (hm : Ipv4.IsMask s.length m)
    (haddress : Text.trim address = s.address.text) (hnetmask : Text.trim netmask = m.text) :
    ofAddressAndNetmask address netmask = .ok (ofSubnet s) := by
  simp only [ofAddressAndNetmask, Ipv4.parse?_of_trim haddress, Ipv4.parse?_of_trim hnetmask,
    Subnet.ofMask?_of_isMask hm]

/-- A dotted text that is no netmask is refused, whatever the text of the address is. -/
theorem exists_ofAddressAndNetmask_eq_error (hm : ∀ n ≤ 32, ¬ Ipv4.IsMask n m)
    (hnetmask : Text.trim netmask = m.text) (address : String) :
    ∃ defect, ofAddressAndNetmask address netmask = .error (.invalidSubnet defect) := by
  rw [ofAddressAndNetmask]
  cases Ipv4.parse? (Text.trimChars address.toList) with
  | none => exact ⟨_, rfl⟩
  | some a =>
    simp only [Ipv4.parse?_of_trim hnetmask, Subnet.ofMask?_eq_none hm]
    exact ⟨_, rfl⟩

end Pool

/-! ## Topologies -/

namespace Topology

variable {s : Subnet} {m : Ipv4} {cidr address netmask : String}

/-- A setting that is not blank is not taken from the defaults. -/
theorem orDefault_of_not_isBlankText {own : String} (h : Text.isBlankText own = false)
    (default_ : Option String) : orDefault (some own) default_ = some own := by
  have hset : isUnset (some own) = false := by simp [isUnset, Text.nonBlank, h]
  rw [orDefault, hset, Bool.false_and, if_neg Bool.false_ne_true]

/-- The pool of a topology whose address gives the length; no netmask is looked at. -/
theorem pool_of_cidr (hcidr : Text.trim cidr = s.text) (t : Topology) (ignored : Option String)
    (d : Defaults) :
    ({ t with address := some cidr, netmask := ignored }.withDefaultSubnet d).pool =
      .ok (Pool.ofSubnet s) := by
  have hslash : '/' ∈ (Text.trim cidr).toList := hcidr ▸ s.cidr_text.slash_mem
  have hblank := Text.isBlankText_of_mem_trim hslash (by decide)
  have haddress : Text.nonBlank (orDefault (some cidr) d.address) = some (Text.trim cidr) := by
    rw [orDefault_of_not_isBlankText hblank]
    exact Text.nonBlank_eq_some.2 ⟨cidr, rfl, hblank, rfl⟩
  have hlength : (Text.trim cidr).toList.contains '/' = true := List.contains_iff_mem.2 hslash
  simp only [withDefaultSubnet, pool, haddress, if_pos hlength]
  exact Pool.ofCidr_of_trim ((Text.trim_trim cidr).trans hcidr)

/-- A text of an address is not blank. -/
theorem isBlankText_of_trim_text {text : String} {a : Ipv4} (h : Text.trim text = a.text) :
    Text.isBlankText text = false := by
  have hpoint : '.' ∈ (Text.trim text).toList := by simp [h, Ipv4.chars]
  exact Text.isBlankText_of_mem_trim hpoint (by decide)

/-- The pool of a topology whose address gives no length, but whose netmask does. -/
theorem pool_of_netmask (hm : Ipv4.IsMask s.length m)
    (haddress : Text.trim address = s.address.text) (hnetmask : Text.trim netmask = m.text)
    (t : Topology) (d : Defaults) :
    ({ t with address := some address, netmask := some netmask }.withDefaultSubnet d).pool =
      .ok (Pool.ofSubnet s) := by
  have hread : ∀ {text : String} {a : Ipv4} (default_ : Option String),
      Text.trim text = a.text →
        Text.nonBlank (orDefault (some text) default_) = some (Text.trim text) := by
    intro text a default_ h
    rw [orDefault_of_not_isBlankText (isBlankText_of_trim_text h)]
    exact Text.nonBlank_eq_some.2 ⟨text, rfl, isBlankText_of_trim_text h, rfl⟩
  have hlength : ¬ (Text.trim address).toList.contains '/' = true := by
    rw [haddress, Ipv4.toList_text, List.contains_iff_mem]
    intro hslash
    rcases Ipv4.isDigit_or_dot hslash with hdigit | hdot
    · exact absurd hdigit (by decide)
    · exact absurd hdot (by decide)
  simp only [withDefaultSubnet, pool, hread _ haddress, hread _ hnetmask, if_neg hlength]
  exact Pool.ofAddressAndNetmask_of_trim hm ((Text.trim_trim address).trans haddress)
    ((Text.trim_trim netmask).trans hnetmask)

end Topology

namespace Mesh

variable {s : Subnet} {m : Ipv4} {cidr address netmask : String}

/-- Topologies with the same name and groups are compiled alike if they have the same pool. -/
theorem map_compile_congr {t t' : Topology} {d : Defaults} (draws : Draws)
    (hname : t'.name = t.name) (hgroups : t'.groups = t.groups)
    (hpool : (t'.withDefaultSubnet d).pool = (t.withDefaultSubnet d).pool) :
    (compile t' d draws).map (fun mesh => (mesh.subnet, mesh.configs)) =
      (compile t d draws).map fun mesh => (mesh.subnet, mesh.configs) := by
  have hhosts : t'.hosts = t.hosts := by rw [Topology.hosts, hgroups, Topology.hosts]
  have hnames : t'.namesByGroup = t.namesByGroup := by
    rw [Topology.namesByGroup, hgroups, Topology.namesByGroup]
  cases hcompile : compile t d draws with
  | error e => rw [(compile_eq_error_congr hpool hhosts hnames).2 hcompile]
  | ok m =>
    rw [compile_eq_ok_congr hpool hhosts hcompile]
    have htopology := topology_eq_of_compile hcompile
    have hname' : ((t'.withDefaultSubnet d).withHosts m.topology.hosts).name = m.topology.name := by
      rw [htopology]
      exact hname
    have hstations : ((t'.withDefaultSubnet d).withHosts m.topology.hosts).stations =
        m.topology.stations := by
      nth_rewrite 2 [htopology]
      have hsame : ((t'.withDefaultSubnet d).withHosts m.topology.hosts).groups =
          ((t.withDefaultSubnet d).withHosts m.topology.hosts).groups := by
        simp only [Topology.withHosts, Topology.withDefaultSubnet, hgroups]
      rw [Topology.stations, hsame, Topology.stations]
    simp only [Except.map, configs, announced, configWith, stations, hname', hstations]

/-- Every way of giving a subnet makes the same new pool, other netmasks are refused, and topologies
that differ in the way only are compiled alike. -/
theorem subnetForms_agree (hm : Ipv4.IsMask s.length m) (hcidr : Text.trim cidr = s.text)
    (haddress : Text.trim address = s.address.text) (hnetmask : Text.trim netmask = m.text) :
    (∃ p : Pool, p.IsNewFor s ∧ Pool.ofSubnet s = p ∧ Pool.ofCidr cidr = .ok p ∧
        Pool.ofAddressAndNetmask address netmask = .ok p) ∧
      (∀ other : Ipv4, (∀ n ≤ 32, ¬ Ipv4.IsMask n other) → ∀ address otherText : String,
        Text.trim otherText = other.text → ∃ defect,
          Pool.ofAddressAndNetmask address otherText = .error (.invalidSubnet defect)) ∧
      ∀ (t : Topology) (d : Defaults) (draws : Draws) (ignored : Option String),
        (compile { t with address := some cidr, netmask := ignored } d draws).map
            (fun mesh => (mesh.subnet, mesh.configs)) =
          (compile { t with address := some address, netmask := some netmask } d draws).map
            fun mesh => (mesh.subnet, mesh.configs) := by
  refine ⟨⟨Pool.ofSubnet s, Pool.isNewFor_ofSubnet s, rfl, Pool.ofCidr_of_trim hcidr,
    Pool.ofAddressAndNetmask_of_trim hm haddress hnetmask⟩, ?_, ?_⟩
  · intro other hother address otherText htext
    exact Pool.exists_ofAddressAndNetmask_eq_error hother htext address
  · intro t d draws ignored
    refine map_compile_congr draws rfl rfl ?_
    rw [Topology.pool_of_cidr hcidr, Topology.pool_of_netmask hm haddress hnetmask]

/-- A subnet of sixteen bits with blanks around its texts, and a netmask with a gap. -/
theorem subnetForms_agree_paddedTexts :
    let s : Subnet := ⟨Ipv4.ofOctets 10 2 1 1, 16, by decide⟩
    (∃ p : Pool, p.IsNewFor s ∧ Pool.ofCidr " 10.2.1.1/16\n" = .ok p ∧
        Pool.ofAddressAndNetmask "\t10.2.1.1" "255.255.0.0 " = .ok p) ∧
      (∃ defect, Pool.ofAddressAndNetmask "10.2.1.1" "255.0.255.0" =
        .error (.invalidSubnet defect)) ∧
      (compile (mixedMesh.withSubnet " 10.2.1.1/16\n") {} (Draw.expand [])).map
          (fun mesh => (mesh.subnet, mesh.configs)) =
        (compile { mixedMesh with address := some "\t10.2.1.1", netmask := some "255.255.0.0 " } {}
          (Draw.expand [])).map fun mesh => (mesh.subnet, mesh.configs) := by
  intro s
  have hmask : Ipv4.IsMask s.length (Ipv4.ofOctets 255 255 0 0) :=
    (Ipv4.isMask_iff s.length_le).2 (by decide)
  have hgap : ∀ n ≤ 32, ¬ Ipv4.IsMask n (Ipv4.ofOctets 255 0 255 0) := by
    intro n hn hone
    -- the first bit of the second octet is a zero, that of the third is a one
    have hzero := hone 8 (by decide)
    have hlater := hone 16 (by decide)
    have hbits : (Ipv4.ofOctets 255 0 255 0).bit 8 = false ∧
        (Ipv4.ofOctets 255 0 255 0).bit 16 = true := by decide
    rw [hbits.1, eq_comm, decide_eq_false_iff_not] at hzero
    rw [hbits.2, eq_comm, decide_eq_true_eq] at hlater
    omega
  have hcidr : Text.trim " 10.2.1.1/16\n" = s.text := by decide
  have haddress : Text.trim "\t10.2.1.1" = s.address.text := by decide
  have hnetmask : Text.trim "255.255.0.0 " = (Ipv4.ofOctets 255 255 0 0).text := by decide
  have hother : Text.trim "255.0.255.0" = (Ipv4.ofOctets 255 0 255 0).text := by decide
  obtain ⟨⟨p, hnew, -, hfromCidr, hfromNetmask⟩, hrefused, hcompile⟩ :=
    subnetForms_agree hmask hcidr haddress hnetmask
  exact ⟨⟨p, hnew, hfromCidr, hfromNetmask⟩, hrefused _ hgap _ _ hother,
    hcompile mixedMesh {} (Draw.expand []) none⟩

end Mesh

end TunnelMesh
