import Mathlib
import TunnelMesh.Proofs.Net.Ipv4
import TunnelMesh.Proofs.Net.Subnet

/-!
# Lengths behind host addresses

A length may stand behind the address of a host, and is ignored where the address is a dotted text
as addresses are written. But the two forms have readers of their own: before a length, octets may
have leading zeros (`Ipv4.ofHostText?_append_length`), and in an address alone they may not
(`Ipv4.ofHostText?_of_not_mem`). So the length is ignored but for texts with such octets
(`Ipv4.length_ignored_iff`), which are addresses only if a length stands behind them
(`Ipv4.length_not_ignored_leadingZero`).
-/

namespace TunnelMesh.Ipv4

/-! ## The two readers -/

section
variable {cs ds : List Char} {text : String} {n : Nat}

/-- No blank stands at the ends of an address with a length behind it, if none stands before the
address. -/
theorem trimChars_append_length (htrim : Text.trimChars cs = cs)
    (hds : Decimal.IsNumeral 2 ds n) : Text.trimChars (cs ++ '/' :: ds) = cs ++ '/' :: ds := by
  obtain ⟨hhead, -⟩ := Text.trimChars_eq_self_iff.1 htrim
  refine Text.trimChars_eq_self_iff.2 ⟨?_, ?_⟩
  · cases cs with
    | nil => simpa using (by decide : Text.isBlank '/' = false)
    | cons c cs => exact hhead
  · intro c hc
    rw [List.getLast?_append_of_ne_nil _ (List.cons_ne_nil _ _),
      ← List.singleton_append, List.getLast?_append_of_ne_nil _ hds.ne_nil] at hc
    exact Text.isBlank_of_isDigit (hds.isDigit c (List.mem_of_mem_getLast? hc))

/-- Where no length stands behind it, an address has no leading zeros. -/
theorem ofHostText?_of_not_mem (hslash : '/' ∉ text.toList) (htrim : Text.trim text = text) :
    ofHostText? text = parse? text.toList := by
  have hsplit : text.toList.splitOn '/' = [text.toList] := List.splitOn_eq_singleton hslash
  rw [ofHostText?, ← Text.toList_trim, htrim]
  cases hread : parse? text.toList with
  | some a => rfl
  | none => simp only [Subnet.parse?, hsplit, Option.map_none]

/-- Before a length, an address may have leading zeros. -/
theorem ofHostText?_append_length (hslash : '/' ∉ text.toList) (htrim : Text.trim text = text)
    (hds : Decimal.IsNumeral 2 ds n) (hn : n ≤ 32) :
    ofHostText? (text ++ "/" ++ String.ofList ds) = parseLoose? text.toList := by
  have hsplit : (text.toList ++ '/' :: ds).splitOn '/' = [text.toList, ds] := by
    rw [List.splitOn_append_cons_self_of_not_mem hslash,
      List.splitOn_eq_singleton (hds.not_mem (by decide))]
  have halone : parse? (text.toList ++ '/' :: ds) = none := by
    rw [Option.eq_none_iff_forall_ne_some]
    intro a ha
    obtain ⟨groups, hdotted, -⟩ := parse?_eq_some.1 ha
    have hnot : '/' ∉ text.toList ++ '/' :: ds := hdotted.not_mem (by decide) (by decide)
    exact hnot (List.mem_append_right _ List.mem_cons_self)
  have hlength : Subnet.length? ds = some ⟨n, hn⟩ := Subnet.length?_eq_some.2 hds
  have htrim' : Text.trimChars text.toList = text.toList := by rw [← Text.toList_trim, htrim]
  rw [ofHostText?, Text.toList_append_length, trimChars_append_length htrim' hds]
  simp only [halone, Subnet.parse?, hsplit, hlength]
  cases parseLoose? text.toList <;> rfl

end

/-! ## Where they agree -/

/-- The two readers agree on characters but for addresses with leading zeros. -/
theorem parseLoose?_eq_parse?_iff {cs : List Char} : parseLoose? cs = parse? cs ↔
    ∀ groups a, Dotted cs groups a → Plain groups := by
  constructor
  · intro h groups a hdotted
    have hread : parse? cs = some a := h ▸ parseLoose?_eq_some.2 ⟨groups, hdotted⟩
    obtain ⟨groups', hdotted', hplain⟩ := parse?_eq_some.1 hread
    rwa [hdotted.splitOn_eq.symm.trans hdotted'.splitOn_eq]
  · intro h
    refine Option.ext fun a => ?_
    rw [parseLoose?_eq_some, parse?_eq_some]
    constructor
    · rintro ⟨groups, hdotted⟩
      exact ⟨groups, hdotted, h groups a hdotted⟩
    · rintro ⟨groups, hdotted, -⟩
      exact ⟨groups, hdotted⟩

/-- A length behind the address of a host is ignored just when the text before it is no address with
leading zeros. With a length, every address is read, with and without leading zeros, so also every
address that is read without a length; dotted texts as they are written are read in both forms. -/
theorem length_ignored_iff {text : String} {n : Nat} (hslash : '/' ∉ text.toList)
    (htrim : Text.trim text = text) (hn : n ≤ 32) :
    (ofHostText? (text ++ "/" ++ Decimal.text n) = ofHostText? text ↔
        ∀ groups a, Dotted text.toList groups a → Plain groups) ∧
      (∀ a, ofHostText? (text ++ "/" ++ Decimal.text n) = some a ↔
        ∃ groups, Dotted text.toList groups a) ∧
      (∀ a, ofHostText? text = some a →
        ofHostText? (text ++ "/" ++ Decimal.text n) = some a) ∧
      ∀ a : Ipv4, text = a.text →
        ofHostText? (text ++ "/" ++ Decimal.text n) = some a ∧ ofHostText? text = some a := by
  have hds : Decimal.IsNumeral 2 (Decimal.digits n) n :=
    Decimal.isNumeral_digits (by decide) (hn.trans_lt (by decide))
  have hlong : ofHostText? (text ++ "/" ++ Decimal.text n) = parseLoose? text.toList :=
    ofHostText?_append_length hslash htrim hds hn
  have hkept : ∀ a, ofHostText? text = some a →
      ofHostText? (text ++ "/" ++ Decimal.text n) = some a := by
    intro a ha
    rw [ofHostText?_of_not_mem hslash htrim] at ha
    obtain ⟨groups, hdotted, -⟩ := parse?_eq_some.1 ha
    rw [hlong]
    exact parseLoose?_eq_some.2 ⟨groups, hdotted⟩
  refine ⟨?_, ?_, hkept, ?_⟩
  · rw [hlong, ofHostText?_of_not_mem hslash htrim, parseLoose?_eq_parse?_iff]
  · intro a
    rw [hlong, parseLoose?_eq_some]
  · rintro a rfl
    exact ⟨hkept a (ofHostText?_text a), ofHostText?_text a⟩

/-- The address of a host with and without a length of 24 behind it. -/
theorem length_ignored_iff_plainText : '/' ∉ "10.0.0.5".toList ∧
    Text.trim "10.0.0.5" = "10.0.0.5" ∧ 24 ≤ 32 ∧
      ofHostText? "10.0.0.5/24" = some (ofOctets 10 0 0 5) ∧
        ofHostText? "10.0.0.5" = some (ofOctets 10 0 0 5) := by
  have hslash : '/' ∉ "10.0.0.5".toList := by decide
  have htrim : Text.trim "10.0.0.5" = "10.0.0.5" := by decide
  have htext : "10.0.0.5" = (ofOctets 10 0 0 5).text := by decide
  have hlong : "10.0.0.5" ++ "/" ++ Decimal.text 24 = "10.0.0.5/24" := by decide
  obtain ⟨-, -, -, hboth⟩ := length_ignored_iff (n := 24) hslash htrim (by decide)
  exact ⟨hslash, htrim, by decide, hlong ▸ hboth _ htext⟩

/-- A text with a leading zero is an address only if a length stands behind it. -/
theorem length_not_ignored_leadingZero : '/' ∉ "010.0.0.5".toList ∧
    Text.trim "010.0.0.5" = "010.0.0.5" ∧ 24 ≤ 32 ∧
      ofHostText? ("010.0.0.5" ++ "/" ++ Decimal.text 24) = some (ofOctets 10 0 0 5) ∧
        ofHostText? "010.0.0.5" = none := by
  decide

end TunnelMesh.Ipv4
