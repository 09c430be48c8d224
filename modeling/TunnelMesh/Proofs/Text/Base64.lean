import Mathlib
import TunnelMesh.Proofs.Except
import TunnelMesh.Proofs.Text.Octets
import TunnelMesh.Proofs.Text.Trim
import TunnelMesh.Text.Base64

/-!
# Base64 texts are read back

Every byte string is read back from its base64 text (`decode_encode`) and from no other text
(`decode_eq_ok`), and no blank stands in such a text (`trim_encode`). Only the last group may have
padding, so the bytes are cut where the last group begins: the groups before it are read symbol by
symbol (`encodeBytes_append`), and the last one with its padding (`lastSextets_encodeBytes`). What
is read is written back in the same way (`encodeBytes_bytesOfSextets_append`,
`encodeBytes_of_lastSextets`).
-/

namespace TunnelMesh.Base64

/-! ## Symbols -/

/-- The byte of the symbol of a six-bit value. -/
def symbolByte (v : Nat) : UInt8 :=
  (symbol v).val.toUInt8

theorem utf8_symbol {v : Nat} (hv : v < 64) :
    String.utf8EncodeChar (symbol v) = [symbolByte v] := by
  have h : ∀ v : Fin 64, String.utf8EncodeChar (symbol v) = [symbolByte v] := by decide
  exact h ⟨v, hv⟩

/-- The value of a symbol is read back from its byte. -/
theorem sextet?_symbolByte {v : Nat} (hv : v < 64) : sextet? (symbolByte v) = some v := by
  have h : ∀ v : Fin 64, sextet? (symbolByte v) = some v.val := by decide
  exact h ⟨v, hv⟩

theorem symbolByte_ne_pad {v : Nat} (hv : v < 64) : symbolByte v ≠ pad := by
  have h : ∀ v : Fin 64, symbolByte v ≠ pad := by decide
  exact h ⟨v, hv⟩

theorem isBlank_symbol {v : Nat} (hv : v < 64) : Text.isBlank (symbol v) = false := by
  have h : ∀ v : Fin 64, Text.isBlank (symbol v) = false := by decide
  exact h ⟨v, hv⟩

/-- Which bytes are read as a value: the ranges of the alphabet. -/
theorem sextet?_eq_some {b : UInt8} {v : Nat} : sextet? b = some v ↔
    v < 26 ∧ b.toNat = v + 65 ∨ 26 ≤ v ∧ v < 52 ∧ b.toNat = v + 71 ∨
      52 ≤ v ∧ v < 62 ∧ b.toNat + 4 = v ∨ v = 62 ∧ b.toNat = 43 ∨ v = 63 ∧ b.toNat = 47 := by
  rw [sextet?]
  split_ifs
  case neg => rw [false_iff]; omega
  all_goals rw [Option.some.injEq]; omega

/-- Only the symbol of a value is read as that value. -/
theorem eq_symbolByte_of_sextet? {b : UInt8} {v : Nat} (h : sextet? b = some v) :
    v < 64 ∧ b = symbolByte v := by
  have hb := sextet?_eq_some.1 h
  have hlt : v < 64 := by omega
  have hsymbol := sextet?_eq_some.1 (sextet?_symbolByte hlt)
  exact ⟨hlt, UInt8.toNat_inj.1 (by omega)⟩

/-! ## Groups -/

/-- The six-bit values of three bytes. -/
def quad (a b c : UInt8) : List Nat :=
  [a.toNat / 4, a.toNat % 4 * 16 + b.toNat / 16, b.toNat % 16 * 4 + c.toNat / 64, c.toNat % 64]

/-- The bytes of a text in base64, without the text in between. -/
def encodeBytes : List UInt8 → List UInt8
  | [] => []
  | [a] => [symbolByte (a.toNat / 4), symbolByte (a.toNat % 4 * 16), pad, pad]
  | [a, b] =>
    [symbolByte (a.toNat / 4), symbolByte (a.toNat % 4 * 16 + b.toNat / 16),
      symbolByte (b.toNat % 16 * 4), pad]
  | a :: b :: c :: rest => (quad a b c).map symbolByte ++ encodeBytes rest

/-- Three bytes are cut into values of six bits. -/
theorem quad_lt (a b c : UInt8) : ∀ v ∈ quad a b c, v < 64 := by
  have := a.toNat_lt
  have := b.toNat_lt
  have := c.toNat_lt
  simp only [quad, List.forall_mem_cons, List.not_mem_nil, false_imp_iff, implies_true, and_true]
  omega

/-- Three bytes are put together again from their four values. -/
theorem bytesOfSextets_quad (a b c : UInt8) (vs : List Nat) :
    bytesOfSextets (quad a b c ++ vs) = a :: b :: c :: bytesOfSextets vs := by
  have ha : (a.toNat / 4) * 4 + (a.toNat % 4 * 16 + b.toNat / 16) / 16 = a.toNat := by
    have := b.toNat_lt; omega
  have hb : (a.toNat % 4 * 16 + b.toNat / 16) % 16 * 16 +
      (b.toNat % 16 * 4 + c.toNat / 64) / 4 = b.toNat := by
    have := b.toNat_lt; have := c.toNat_lt; omega
  have hc : (b.toNat % 16 * 4 + c.toNat / 64) % 4 * 64 + c.toNat % 64 = c.toNat := by
    have := c.toNat_lt; omega
  simp only [quad, List.cons_append, List.nil_append, bytesOfSextets, ha, hb, hc,
    UInt8.ofNat_toNat]

/-- The values of symbols are read, wherever they begin. -/
theorem sextets_map_symbolByte (offset : Nat) {vs : List Nat} (hvs : ∀ v ∈ vs, v < 64) :
    sextets offset (vs.map symbolByte) = .ok vs := by
  induction vs generalizing offset with
  | nil => rfl
  | cons v vs ih =>
    rw [List.forall_mem_cons] at hvs
    rw [List.map_cons, sextets, sextet?_symbolByte hvs.1]
    simp only [ih (offset + 1) hvs.2]
    rfl

/-- What is read as values is written with their symbols. -/
theorem sextets_eq_ok {offset : Nat} {bs : List UInt8} {vs : List Nat}
    (h : sextets offset bs = .ok vs) : (∀ v ∈ vs, v < 64) ∧ bs = vs.map symbolByte := by
  induction bs generalizing offset vs with
  | nil =>
    obtain rfl := Except.ok.inj h
    exact ⟨by simp, rfl⟩
  | cons b bs ih =>
    rw [sextets] at h
    cases hb : sextet? b with
    | none =>
      rw [hb] at h
      cases h
    | some v =>
      rw [hb] at h
      cases hrest : sextets (offset + 1) bs with
      | error d =>
        simp only [hrest] at h
        cases h
      | ok ws =>
        simp only [hrest] at h
        obtain rfl := Except.ok.inj h
        obtain ⟨hv, rfl⟩ := eq_symbolByte_of_sextet? hb
        obtain ⟨hws, rfl⟩ := ih hrest
        exact ⟨List.forall_mem_cons.2 ⟨hv, hws⟩, rfl⟩

/-- The symbols of whole groups of three bytes. -/
theorem encodeBytes_append (front back : List UInt8) (hfront : 3 ∣ front.length) :
    ∃ vs, (∀ v ∈ vs, v < 64) ∧ 4 * (front.length / 3) = vs.length ∧
      encodeBytes (front ++ back) = vs.map symbolByte ++ encodeBytes back ∧
      bytesOfSextets vs = front := by
  induction front using encodeBytes.induct with
  | case1 => exact ⟨[], by simp, rfl, rfl, rfl⟩
  | case2 a => simp at hfront
  | case3 a b => simp at hfront
  | case4 a b c rest ih =>
    have hrest : 3 ∣ rest.length := by simpa [Nat.dvd_add_left] using hfront
    obtain ⟨vs, hvs, hlen, henc, hbytes⟩ := ih hrest
    refine ⟨quad a b c ++ vs, ?_, ?_, ?_, ?_⟩
    · simpa [or_imp, forall_and] using ⟨quad_lt a b c, hvs⟩
    · simp only [List.length_cons, List.length_append, quad, List.length_nil]
      omega
    · simp only [List.cons_append, encodeBytes, henc, List.map_append, List.append_assoc]
    · rw [bytesOfSextets_quad, hbytes]

/-- Four values are those of the three bytes that they denote. -/
theorem quad_ofNat {a b c d : Nat} (ha : a < 64) (hb : b < 64) (hc : c < 64) (hd : d < 64) :
    quad (UInt8.ofNat (a * 4 + b / 16)) (UInt8.ofNat (b % 16 * 16 + c / 4))
      (UInt8.ofNat (c % 4 * 64 + d)) = [a, b, c, d] := by
  have h₁ : (UInt8.ofNat (a * 4 + b / 16)).toNat = a * 4 + b / 16 := by
    rw [UInt8.toNat_ofNat']; omega
  have h₂ : (UInt8.ofNat (b % 16 * 16 + c / 4)).toNat = b % 16 * 16 + c / 4 := by
    rw [UInt8.toNat_ofNat']; omega
  have h₃ : (UInt8.ofNat (c % 4 * 64 + d)).toNat = c % 4 * 64 + d := by
    rw [UInt8.toNat_ofNat']; omega
  rw [quad, h₁, h₂, h₃]
  simp only [List.cons.injEq, and_true]
  omega

/-- Values in whole groups are written with their symbols. -/
theorem encodeBytes_bytesOfSextets_append {vs : List Nat} (hvs : ∀ v ∈ vs, v < 64)
    (hgroups : 4 ∣ vs.length) (back : List UInt8) :
    encodeBytes (bytesOfSextets vs ++ back) = vs.map symbolByte ++ encodeBytes back := by
  induction vs using bytesOfSextets.induct with
  | case1 a b c d rest ih =>
    simp only [List.forall_mem_cons] at hvs
    obtain ⟨ha, hb, hc, hd, hrest⟩ := hvs
    have hgroups' : 4 ∣ rest.length := by simpa [Nat.dvd_add_left] using hgroups
    rw [bytesOfSextets, List.cons_append, List.cons_append, List.cons_append, encodeBytes,
      quad_ofNat ha hb hc hd, ih hrest hgroups']
    rfl
  | case2 a b c => simp at hgroups
  | case3 a b => simp at hgroups
  | case4 vs h₁ h₂ h₃ =>
    rcases vs with _ | ⟨a, _ | ⟨b, _ | ⟨c, _ | ⟨d, rest⟩⟩⟩⟩
    · rfl
    · simp at hgroups
    · exact absurd rfl (h₃ a b)
    · exact absurd rfl (h₂ a b c)
    · exact absurd rfl (h₁ a b c d rest)

/-! ## The last group -/

/-- Symbols and the padding that fills their group are read as the symbols' values. -/
theorem lastSextets_symbols (start : Nat) {vs : List Nat} {k : Nat} (hvs : ∀ v ∈ vs, v < 64)
    (htwo : 2 ≤ vs.length) (hgroup : (vs.length + k) % 4 = 0) (hspare : spareBits vs = 0) :
    lastSextets start (vs.map symbolByte ++ List.replicate k pad) = .ok vs := by
  have hne : ∀ b ∈ vs.map symbolByte, (b != pad) = true := by
    intro b hb
    obtain ⟨v, hv, rfl⟩ := List.mem_map.1 hb
    exact bne_iff_ne.2 (symbolByte_ne_pad (hvs v hv))
  have htake : (vs.map symbolByte ++ List.replicate k pad).takeWhile (· != pad) =
      vs.map symbolByte := by
    rw [List.takeWhile_append_of_pos hne]
    cases k <;> simp [List.replicate_succ]
  have hdrop : (vs.map symbolByte ++ List.replicate k pad).dropWhile (· != pad) =
      List.replicate k pad := by
    rw [List.dropWhile_append_of_pos hne]
    cases k <;> simp [List.replicate_succ]
  have hpads : (List.replicate k pad).any (· != pad) = false := by simp
  rw [lastSextets, htake, hdrop, sextets_map_symbolByte start hvs]
  have hlong : ¬ vs.length < 2 := by omega
  simp [hlong, hgroup, hspare, hpads, bind, Except.bind, pure, Except.pure]

/-- The last group is read: one, two or three bytes, with the padding that they need. -/
theorem lastSextets_encodeBytes (start : Nat) (bs : List UInt8) (hpos : bs ≠ [])
    (hlen : bs.length ≤ 3) :
    ∃ vs, lastSextets start (encodeBytes bs) = .ok vs ∧ bytesOfSextets vs = bs := by
  rcases bs with _ | ⟨a, _ | ⟨b, _ | ⟨c, _ | ⟨d, rest⟩⟩⟩⟩
  · exact absurd rfl hpos
  · have ha := a.toNat_lt
    refine ⟨[a.toNat / 4, a.toNat % 4 * 16], ?_, ?_⟩
    · have hlt : ∀ v ∈ [a.toNat / 4, a.toNat % 4 * 16], v < 64 := by
        simp only [List.forall_mem_cons, List.not_mem_nil, false_imp_iff, implies_true, and_true]
        omega
      have hspare : spareBits [a.toNat / 4, a.toNat % 4 * 16] = 0 := by simp [spareBits]
      exact lastSextets_symbols (k := 2) start hlt (by simp) (by simp) hspare
    · have hbyte : a.toNat / 4 * 4 + a.toNat % 4 * 16 / 16 = a.toNat := by omega
      simp only [bytesOfSextets, hbyte, UInt8.ofNat_toNat]
  · have ha := a.toNat_lt
    have hb := b.toNat_lt
    refine ⟨[a.toNat / 4, a.toNat % 4 * 16 + b.toNat / 16, b.toNat % 16 * 4], ?_, ?_⟩
    · have hlt : ∀ v ∈ [a.toNat / 4, a.toNat % 4 * 16 + b.toNat / 16, b.toNat % 16 * 4],
          v < 64 := by
        simp only [List.forall_mem_cons, List.not_mem_nil, false_imp_iff, implies_true, and_true]
        omega
      have hspare : spareBits [a.toNat / 4, a.toNat % 4 * 16 + b.toNat / 16, b.toNat % 16 * 4] =
          0 := by simp only [spareBits]; omega
      exact lastSextets_symbols (k := 1) start hlt (by simp) (by simp) hspare
    · have hfirst : a.toNat / 4 * 4 + (a.toNat % 4 * 16 + b.toNat / 16) / 16 = a.toNat := by omega
      have hsecond : (a.toNat % 4 * 16 + b.toNat / 16) % 16 * 16 + b.toNat % 16 * 4 / 4 =
          b.toNat := by omega
      simp only [bytesOfSextets, hfirst, hsecond, UInt8.ofNat_toNat]
  · refine ⟨quad a b c, ?_, ?_⟩
    · have := lastSextets_symbols (k := 0) start (quad_lt a b c) (by simp [quad]) (by simp [quad])
        (by simp [quad, spareBits])
      simpa [encodeBytes] using this
    · simpa [bytesOfSextets] using bytesOfSextets_quad a b c []
  · simp only [List.length_cons] at hlen
    omega

/-- Values that fill no group are written with padding, if they have no spare bits. -/
theorem encodeBytes_bytesOfSextets_of_spareBits {vs : List Nat} (hvs : ∀ v ∈ vs, v < 64)
    (htwo : 2 ≤ vs.length) (hfour : vs.length ≤ 4) (hspare : spareBits vs = 0) :
    encodeBytes (bytesOfSextets vs) =
      vs.map symbolByte ++ List.replicate (4 - vs.length) pad := by
  rcases vs with _ | ⟨a, _ | ⟨b, _ | ⟨c, _ | ⟨d, _ | ⟨e, rest⟩⟩⟩⟩⟩
  · simp at htwo
  · simp at htwo
  · simp only [List.forall_mem_cons] at hvs
    obtain ⟨ha, hb, -⟩ := hvs
    rw [spareBits] at hspare
    have hbyte : (UInt8.ofNat (a * 4 + b / 16)).toNat = a * 4 + b / 16 := by
      rw [UInt8.toNat_ofNat']; omega
    have hfirst : (a * 4 + b / 16) / 4 = a := by omega
    have hsecond : (a * 4 + b / 16) % 4 * 16 = b := by omega
    simp only [bytesOfSextets, encodeBytes, hbyte, hfirst, hsecond]
    rfl
  · simp only [List.forall_mem_cons] at hvs
    obtain ⟨ha, hb, hc, -⟩ := hvs
    rw [spareBits] at hspare
    have hbyte : (UInt8.ofNat (a * 4 + b / 16)).toNat = a * 4 + b / 16 := by
      rw [UInt8.toNat_ofNat']; omega
    have hbyte' : (UInt8.ofNat (b % 16 * 16 + c / 4)).toNat = b % 16 * 16 + c / 4 := by
      rw [UInt8.toNat_ofNat']; omega
    have hfirst : (a * 4 + b / 16) / 4 = a := by omega
    have hsecond : (a * 4 + b / 16) % 4 * 16 + (b % 16 * 16 + c / 4) / 16 = b := by omega
    have hthird : (b % 16 * 16 + c / 4) % 16 * 4 = c := by omega
    simp only [bytesOfSextets, encodeBytes, hbyte, hbyte', hfirst, hsecond, hthird]
    rfl
  · have := encodeBytes_bytesOfSextets_append hvs (by simp) []
    simpa [encodeBytes] using this
  · simp only [List.length_cons] at hfour
    omega

/-- What is read as the last group is the written form of what it denotes. -/
theorem encodeBytes_of_lastSextets {start : Nat} {group : List UInt8} {vs : List Nat}
    (h : lastSextets start group = .ok vs) (hfour : group.length ≤ 4) :
    encodeBytes (bytesOfSextets vs) = group := by
  rw [lastSextets] at h
  simp only [Except.bind_eq_ok, Except.ite_throw_eq_ok] at h
  obtain ⟨ws, hws, hpadding, hshort, hfill, hspare, h⟩ := h
  obtain rfl := Except.ok.inj h
  rcases eq_or_ne group [] with rfl | hne
  · obtain rfl := Except.ok.inj hws
    rfl
  obtain ⟨hlt, hsymbols⟩ := sextets_eq_ok hws
  have hsplit := List.takeWhile_append_dropWhile (p := (· != pad)) (l := group)
  have hcount := congrArg List.length hsplit
  rw [hsymbols, List.length_append, List.length_map] at hcount
  rw [hsymbols, List.length_map] at hshort
  have hpos := List.length_pos_iff.2 hne
  have htwo : 2 ≤ ws.length := by
    by_contra hlow
    exact hshort ⟨hne, by omega⟩
  -- behind the symbols there is nothing but padding, and it fills the group
  have hpads : ∀ b ∈ group.dropWhile (· != pad), b = pad := by
    intro b hb
    by_contra hother
    exact hpadding ⟨List.ne_nil_of_mem hb,
      .inr (List.any_eq_true.2 ⟨b, hb, bne_iff_ne.2 hother⟩)⟩
  have hrest : (group.dropWhile (· != pad)).length = 4 - ws.length := by omega
  rw [encodeBytes_bytesOfSextets_of_spareBits hlt htwo (by omega) (not_not.1 hspare), ← hsymbols,
    ← hrest, ← List.eq_replicate_of_mem hpads, hsplit]

/-! ## Whole texts -/

/-- Every three bytes, or what is left of them, take four symbols. -/
theorem length_encodeBytes (bs : List UInt8) :
    (encodeBytes bs).length = (bs.length + 2) / 3 * 4 := by
  induction bs using encodeBytes.induct with
  | case1 => rfl
  | case2 a => simp [encodeBytes]
  | case3 a b => simp [encodeBytes]
  | case4 a b c rest ih =>
    simp only [encodeBytes, List.length_append, List.length_map, ih, quad, List.length_cons,
      List.length_nil]
    omega

/-- The bytes of a byte string's text are read as the byte string. -/
theorem decodeBytes_encodeBytes (bs : List UInt8) : decodeBytes (encodeBytes bs) = .ok bs := by
  rcases eq_or_ne bs [] with rfl | hne
  · rfl
  have hpos : 0 < bs.length := List.length_pos_iff.2 hne
  -- all groups but the last
  have hsplit : (bs.take ((bs.length - 1) / 3 * 3)) ++ (bs.drop ((bs.length - 1) / 3 * 3)) = bs :=
    List.take_append_drop _ _
  set front := bs.take ((bs.length - 1) / 3 * 3) with hfront
  set back := bs.drop ((bs.length - 1) / 3 * 3) with hback
  have hflen : front.length = (bs.length - 1) / 3 * 3 := by
    rw [hfront, List.length_take]; omega
  have hblen : back.length = bs.length - (bs.length - 1) / 3 * 3 := by rw [hback, List.length_drop]
  obtain ⟨vs, hvs, hvlen, henc, hbytes⟩ :=
    encodeBytes_append front back ⟨_, by rw [hflen, Nat.mul_comm]⟩
  obtain ⟨ws, hws, hwbytes⟩ := lastSextets_encodeBytes vs.length back
    (List.length_pos_iff.1 (by omega)) (by omega)
  have hlen := length_encodeBytes bs
  have hstart : lastGroup (encodeBytes bs).length = (vs.map symbolByte).length := by
    rw [lastGroup, if_pos (by omega), List.length_map]
    omega
  rw [hsplit] at henc
  have hnot : ¬ (encodeBytes bs).length % 4 = 1 := by omega
  rw [decodeBytes]
  simp only [hnot, false_and, if_false]
  rw [hstart, henc, List.take_left, List.drop_left, sextets_map_symbolByte 0 hvs,
    List.length_map, hws]
  cases h : (vs.map symbolByte ++ encodeBytes back).getLast? <;>
    simp [bind, Except.bind, pure, Except.pure, hbytes, hwbytes, hsplit]

/-- All groups but the last are whole, and the last one is no longer than they are. -/
theorem lastGroup_spec (n : Nat) : 4 ∣ lastGroup n ∧ lastGroup n ≤ n ∧ n ≤ lastGroup n + 4 := by
  rw [lastGroup]
  split <;> omega

/-- Bytes that are read are the written form of what they denote. -/
theorem encodeBytes_of_decodeBytes {bs out : List UInt8} (h : decodeBytes bs = .ok out) :
    encodeBytes out = bs := by
  have hread : ∃ vs, sextets 0 (bs.take (lastGroup bs.length)) = .ok vs ∧
      ∃ ws, lastSextets (lastGroup bs.length) (bs.drop (lastGroup bs.length)) = .ok ws ∧
        bytesOfSextets vs ++ bytesOfSextets ws = out := by
    rw [decodeBytes] at h
    cases hlast : bs.getLast? with
    | none =>
      simp only [hlast, Except.bind_eq_ok, pure, Except.pure, Except.ok.injEq] at h
      exact h
    | some last =>
      simp only [hlast, Except.bind_eq_ok, Except.ite_throw_eq_ok, pure, Except.pure,
        Except.ok.injEq] at h
      exact h.2
  obtain ⟨vs, hvs, ws, hws, rfl⟩ := hread
  obtain ⟨hgroups, hle, hfour⟩ := lastGroup_spec bs.length
  obtain ⟨hlt, hfront⟩ := sextets_eq_ok hvs
  have hcount := congrArg List.length hfront
  rw [List.length_take, Nat.min_eq_left hle, List.length_map] at hcount
  have hback := encodeBytes_of_lastSextets hws (by rw [List.length_drop]; omega)
  rw [encodeBytes_bytesOfSextets_append hlt (hcount ▸ hgroups), hback, ← hfront,
    List.take_append_drop]

/-- The bytes of an encoded text are the encoded bytes. -/
theorem utf8_encode (bs : List UInt8) : Text.utf8 (encode bs) = encodeBytes bs := by
  have hpad : String.utf8EncodeChar '=' = [pad] := by decide
  rw [Text.utf8, encode, String.toList_ofList]
  induction bs using encodeBytes.induct with
  | case1 => rfl
  | case2 a =>
    have ha := a.toNat_lt
    have h₁ := utf8_symbol (v := a.toNat / 4) (by omega)
    have h₂ := utf8_symbol (v := a.toNat % 4 * 16) (by omega)
    simp [encodeChars, encodeBytes, h₁, h₂, hpad]
  | case3 a b =>
    have ha := a.toNat_lt
    have hb := b.toNat_lt
    have h₁ := utf8_symbol (v := a.toNat / 4) (by omega)
    have h₂ := utf8_symbol (v := a.toNat % 4 * 16 + b.toNat / 16) (by omega)
    have h₃ := utf8_symbol (v := b.toNat % 16 * 4) (by omega)
    simp [encodeChars, encodeBytes, h₁, h₂, h₃, hpad]
  | case4 a b c rest ih =>
    have hquad := quad_lt a b c
    simp only [quad, List.forall_mem_cons] at hquad
    obtain ⟨h₁, h₂, h₃, h₄, -⟩ := hquad
    simp [encodeChars, encodeBytes, quad, utf8_symbol h₁, utf8_symbol h₂, utf8_symbol h₃,
      utf8_symbol h₄, ih]

/-- Every byte string is read back from its text. -/
theorem decode_encode (bs : List UInt8) : decode (encode bs) = .ok bs := by
  rw [decode, utf8_encode, decodeBytes_encodeBytes]

/-- A byte string is read from its own text only. -/
theorem decode_eq_ok {s : String} {bs : List UInt8} : decode s = .ok bs ↔ s = encode bs := by
  refine ⟨fun h => Text.utf8_injective ?_, fun h => h ▸ decode_encode bs⟩
  rw [utf8_encode, encodeBytes_of_decodeBytes h]

/-- No blank stands in the text of a byte string. -/
theorem isBlank_encodeChars {bs : List UInt8} : ∀ c ∈ encodeChars bs, Text.isBlank c = false := by
  have hpad : Text.isBlank '=' = false := by decide
  induction bs using encodeBytes.induct with
  | case1 => simp [encodeChars]
  | case2 a =>
    have ha := a.toNat_lt
    have h₁ := isBlank_symbol (v := a.toNat / 4) (by omega)
    have h₂ := isBlank_symbol (v := a.toNat % 4 * 16) (by omega)
    simp [encodeChars, h₁, h₂, hpad]
  | case3 a b =>
    have ha := a.toNat_lt
    have hb := b.toNat_lt
    have h₁ := isBlank_symbol (v := a.toNat / 4) (by omega)
    have h₂ := isBlank_symbol (v := a.toNat % 4 * 16 + b.toNat / 16) (by omega)
    have h₃ := isBlank_symbol (v := b.toNat % 16 * 4) (by omega)
    simp [encodeChars, h₁, h₂, h₃, hpad]
  | case4 a b c rest ih =>
    have hquad := quad_lt a b c
    simp only [quad, List.forall_mem_cons] at hquad
    obtain ⟨h₁, h₂, h₃, h₄, -⟩ := hquad
    simp only [encodeChars, List.forall_mem_cons]
    exact ⟨isBlank_symbol h₁, isBlank_symbol h₂, isBlank_symbol h₃, isBlank_symbol h₄, ih⟩

/-- Trimming leaves an encoded text as it is. -/
theorem trim_encode (bs : List UInt8) : Text.trim (encode bs) = encode bs := by
  refine Text.trim_of_forall fun c hc => ?_
  rw [encode, String.toList_ofList] at hc
  exact isBlank_encodeChars c hc

/-- What is encoded of any bytes is not blank. -/
theorem not_isBlankText_encode {bs : List UInt8} (hne : bs ≠ []) :
    Text.isBlankText (encode bs) = false := by
  rw [Bool.eq_false_iff, ne_eq, Text.isBlankText_iff, encode, String.toList_ofList]
  intro hall
  rcases hchars : encodeChars bs with _ | ⟨c, cs⟩
  · have hread := decode_encode bs
    rw [encode, hchars] at hread
    exact hne (Except.ok.inj hread).symm
  · have hc : c ∈ encodeChars bs := by simp [hchars]
    simpa [isBlank_encodeChars c hc] using hall c hc

end TunnelMesh.Base64
