import Mathlib
import TunnelMesh.Net.Subnet
import TunnelMesh.Proofs.Text.Decimal
import TunnelMesh.Proofs.Text.Trim

/-!
# Address texts are read back

An address is read back from its dotted text, both as an address alone (`Ipv4.parse?_chars`) and as
the address of a host (`Ipv4.ofHostText?_text`). No blank stands in such a text, so trimming leaves
it as it is (`Ipv4.trim_text`).
-/

namespace TunnelMesh

namespace Ipv4

/-! ## Octets -/

/-- An octet has at most three digits. -/
theorem length_digits_le {n : Nat} (h : n < 256) : (Decimal.digits n).length ≤ 3 :=
  (Nat.length_toDigits_le_iff (by decide) (by decide)).2 (h.trans (by decide))

/-- An octet is read back from its digits. -/
theorem octet?_digits {n : Nat} (h : n < 256) : octet? (Decimal.digits n) = some n := by
  simp only [octet?, if_pos (length_digits_le h), Decimal.natural?_digits, if_pos h]

/-- The digits of an octet have no leading zero. -/
theorem isPlain_digits (n : Nat) : isPlain (Decimal.digits n) = true := by
  rw [isPlain, Bool.or_eq_true, beq_iff_eq, bne_iff_ne]
  exact Decimal.length_digits_or_head?_digits n

theorem dot_not_mem_digits (n : Nat) : '.' ∉ Decimal.digits n := fun h =>
  absurd (Decimal.isDigit_of_mem_digits h) (by decide)

/-! ## Addresses -/

/-- The octets of an address stand between the points of its text. -/
theorem splitOn_chars (a : Ipv4) : a.chars.splitOn '.' =
    [Decimal.digits (a.toNat / 16777216), Decimal.digits (a.toNat / 65536 % 256),
      Decimal.digits (a.toNat / 256 % 256), Decimal.digits (a.toNat % 256)] := by
  simp only [chars, List.splitOn_append_cons_self_of_not_mem (dot_not_mem_digits _),
    List.splitOn_eq_singleton (dot_not_mem_digits _)]

/-- An address is that of its four octets. -/
theorem ofOctets_toNat (a : Ipv4) : ofOctets (a.toNat / 16777216) (a.toNat / 65536 % 256)
    (a.toNat / 256 % 256) (a.toNat % 256) = a := by
  obtain ⟨n, hn⟩ := a
  simp only [ofOctets, ofNat, mk.injEq]
  omega

/-- An address is read back from the characters of its text. -/
theorem parse?_chars (a : Ipv4) : parse? a.chars = some a := by
  have hlt := a.lt
  have h₁ : a.toNat / 16777216 < 256 := by omega
  have h₂ : a.toNat / 65536 % 256 < 256 := Nat.mod_lt _ (by decide)
  have h₃ : a.toNat / 256 % 256 < 256 := Nat.mod_lt _ (by decide)
  have h₄ : a.toNat % 256 < 256 := Nat.mod_lt _ (by decide)
  have hplain : (a.chars.splitOn '.').all isPlain = true := by
    rw [splitOn_chars]
    simp [isPlain_digits]
  rw [parse?, if_pos hplain, parseLoose?, splitOn_chars]
  simp [octet?_digits h₁, octet?_digits h₂, octet?_digits h₃, octet?_digits h₄, ofOctets_toNat]

/-- The text of an address consists of digits and points. -/
theorem isDigit_or_dot {a : Ipv4} {c : Char} (h : c ∈ a.chars) : c.isDigit = true ∨ c = '.' := by
  simp only [chars, List.mem_append, List.mem_cons] at h
  rcases h with h | rfl | h | rfl | h | rfl | h
  · exact .inl (Decimal.isDigit_of_mem_digits h)
  · exact .inr rfl
  · exact .inl (Decimal.isDigit_of_mem_digits h)
  · exact .inr rfl
  · exact .inl (Decimal.isDigit_of_mem_digits h)
  · exact .inr rfl
  · exact .inl (Decimal.isDigit_of_mem_digits h)

/-- An address is written without blanks. -/
theorem isBlank_of_mem_chars {a : Ipv4} {c : Char} (h : c ∈ a.chars) : Text.isBlank c = false := by
  rcases isDigit_or_dot h with hdigit | rfl
  · exact Text.isBlank_of_isDigit hdigit
  · decide

@[simp] theorem toList_text (a : Ipv4) : a.text.toList = a.chars := by
  rw [text, String.toList_ofList]

/-- Trimming leaves the text of an address as it is. -/
theorem trim_text (a : Ipv4) : Text.trim a.text = a.text :=
  Text.trim_of_forall fun _ hc => isBlank_of_mem_chars (a.toList_text ▸ hc)

/-- The address of a host is read back from its text. -/
@[simp] theorem ofHostText?_text (a : Ipv4) : ofHostText? a.text = some a := by
  have htrim : Text.trimChars a.text.toList = a.chars := by
    rw [← Text.toList_trim, trim_text, toList_text]
  simp only [ofHostText?, htrim, parse?_chars]

/-- Blanks around the address of a host do not count. -/
@[simp] theorem ofHostText?_trim (s : String) : ofHostText? (Text.trim s) = ofHostText? s := by
  simp [ofHostText?, Text.trimChars_trimChars]

end Ipv4

end TunnelMesh
