import Mathlib
import TunnelMesh.Json.Codec
import TunnelMesh.Proofs.Except
import TunnelMesh.Proofs.Json.Value
import TunnelMesh.Proofs.List

/-!
# Codecs read what they write

A codec is lawful if it reads every value back from what it has written (`Codec.Lawful`). The codecs
of texts, numbers, truth values and names are, and lists, optional values and records of lawful
codecs are again. A member of a record may be left out only where the record that is read has the
same value there without it: `Schema.Restores` follows the record from its blank over all members.
-/

namespace TunnelMesh.Json

/-! ## Numbers -/

/-- Digits that are read behind a number do not make it less. -/
theorem le_ofDigitChars (ds : List Char) (n : Nat) : n ≤ Nat.ofDigitChars 10 ds n := by
  rw [Nat.ofDigitChars_eq_ofDigitChars_zero]
  exact (Nat.le_mul_of_pos_left n (Nat.pow_pos (by decide))).trans (Nat.le_add_right ..)

/-- All digits of a number are taken where it fits into 64 bits. -/
theorem pushDigits_eq {n : Nat} {ds : List Char} (h : Nat.ofDigitChars 10 ds n < UInt64.size) :
    pushDigits n ds = (Nat.ofDigitChars 10 ds n, 0) := by
  induction ds generalizing n with
  | nil => rfl
  | cons d ds ih =>
    rw [Nat.ofDigitChars_cons, Nat.mul_comm] at h ⊢
    have hlt : n * 10 + (d.toNat - '0'.toNat) < UInt64.size :=
      Nat.lt_of_le_of_lt (le_ofDigitChars ds _) h
    rw [pushDigits, if_pos hlt, ih h]

/-- A number of at most 53 bits is a double. -/
theorem roundToDouble_of_lt {n : Nat} (h : n < 2 ^ 53) : roundToDouble n = n := by
  have hspare : n.log2 + 1 - 53 = 0 := by
    cases n with
    | zero => rfl
    | succ n =>
      have hlog : (n + 1).log2 < 53 := (Nat.log2_lt n.succ_ne_zero).2 h
      omega
  simp [roundToDouble, hspare, Nat.mod_one]

/-- A number of at most 53 bits is not too large. -/
theorem isHuge_ofNat {n : Nat} (h : n < 2 ^ 53) : (Numeral.ofNat n).isHuge = false := by
  have hvalue : Nat.ofDigitChars 10 (Decimal.digits n) 0 = n := Decimal.value_digits n
  have hpush : pushDigits 0 (Decimal.digits n) = (n, 0) := by
    rw [pushDigits_eq (by rw [hvalue]; exact h.trans (by decide)), hvalue]
  have hlimit : 2 ^ 53 ≤ Nat.pow 2 1024 - Nat.pow 2 970 := by decide +kernel
  have hpower : Int.ofNat 0 - Int.ofNat (([] : List Char).length - 0) = 0 := rfl
  have hone : roundToDouble (Nat.pow 10 (0 : Int).toNat) = 1 := by decide
  simp only [Numeral.isHuge, Numeral.ofNat, hpush, pushDigits, hpower]
  split
  · rfl
  · rw [if_neg (by decide), hone, roundToDouble_of_lt h, Nat.mul_one, decide_eq_false_iff_not,
      Nat.not_le]
    exact h.trans_le hlimit

/-- A number below a bound is read back. -/
theorem Codec.readNatural_ofNat {bound n : Nat} (hbound : bound ≤ 2 ^ 53) (h : n < bound) :
    readNatural bound (.ofNat n) = .ok n := by
  have hvalue : Decimal.value (Numeral.ofNat n).whole = n := Decimal.value_digits n
  rw [readNatural, isHuge_ofNat (h.trans_le hbound), hvalue, if_neg (by decide),
    if_neg (by simp [Numeral.ofNat]), if_pos h]

namespace Codec

/-! ## Values -/

/-- A codec reads what it writes. What it writes is not `null`, which stands for no value. -/
structure Lawful {α : Type} (c : Codec α) : Prop where
  read_draft : ∀ a, c.read (c.write a).draft = .ok a
  draft_ne_null : ∀ a, (c.write a).draft ≠ .null

/-- Texts are read back. -/
theorem lawful_text : text.Lawful where
  read_draft s := by
    simp [text, Value.draft]
  draft_ne_null s := by
    simp [text, Value.draft]

theorem lawful_bool : bool.Lawful where
  read_draft b := rfl
  draft_ne_null b := by
    simp [bool, Value.draft]

/-- Numbers of sixteen bits are read back. -/
theorem lawful_uint16 : uint16.Lawful where
  read_draft n := by
    have hread := readNatural_ofNat (by decide) n.toNat_lt_size
    simp only [uint16, Value.draft, hread, Except.map, UInt16.ofNat_toNat]
  draft_ne_null n := by
    simp [uint16, Value.draft]

theorem lawful_uint32 : uint32.Lawful where
  read_draft n := by
    have hread := readNatural_ofNat (by decide) n.toNat_lt_size
    simp only [uint32, Value.draft, hread, Except.map, UInt32.ofNat_toNat]
  draft_ne_null n := by
    simp [uint32, Value.draft]

/-- Values that are given by name are read back if every name stands for its value. -/
theorem lawful_named {α : Type} {names : List (String × α)} {nameOf : α → String}
    (h : ∀ a, names.lookup (nameOf a) = some a) : (named names nameOf).Lawful where
  read_draft a := by
    simp only [named, Value.draft, readName, Quoted.text_ofText, bind, Except.bind, h a]
  draft_ne_null a := by
    simp [named, Value.draft]

section

variable {α : Type} {c : Codec α}

/-- What is not `null` is read as a value. -/
theorem read_option {d : Draft} (h : d ≠ .null) : c.option.read d = (c.read d).map some := by
  cases d <;> first | rfl | contradiction

/-- The entries of a list are read back one by one. -/
theorem readItems_map (hc : c.Lawful) (as : List α) :
    readItems c.read (as.map fun a => (c.write a).draft) = .ok as := by
  induction as with
  | nil => rfl
  | cons a as ih =>
    rw [List.map_cons, readItems, hc.read_draft a, ih]
    rfl

/-- Lists are read back where their entries are. -/
theorem Lawful.list (hc : c.Lawful) : c.list.Lawful where
  read_draft as := by
    have hitems := readItems_map hc as
    simp only [Codec.list, Value.draft, entryDrafts_eq_map, List.map_map, Function.comp_def, hitems]
    rfl
  draft_ne_null as := by
    simp [Codec.list, Value.draft]

end

end Codec

/-! ## Members -/

variable {ρ α : Type}

namespace Field

/-- A member takes a record that is being read from `acc` to `acc'`, if it is written from `r`.
Where it is left out, there is nothing to be read. -/
structure Restores (f : Field ρ) (r acc acc' : ρ) : Prop where
  written : ∀ v, f.write r = some v → f.read v.draft acc = .ok acc'
  omitted : f.write r = none → acc' = acc
  /-- A member that a document has to give is not left out. -/
  required : f.required = true → f.write r ≠ none

section

variable {c : Codec α} (hc : c.Lawful) {r acc : ρ} {name : String}
include hc

/-- A member that is always written is restored from what is written of it. -/
theorem restores_always {aliases : List String} {required : Bool} {get : ρ → α} {set : α → ρ → ρ} :
    (Field.always name aliases required c get set).Restores r acc (set (get r) acc) where
  written := by
    rintro _ ⟨⟩
    simp only [always, hc.read_draft, Except.map]
  omitted := by
    simp [always]
  required := by
    simp [always]

/-- A value may be left out where setting none changes nothing. -/
theorem restores_optional {get : ρ → Option α} {set : Option α → ρ → ρ}
    (hopen : set none acc = acc) :
    (Field.optional name c get set).Restores r acc (set (get r) acc) where
  written := by
    intro v hv
    obtain ⟨a, ha, rfl⟩ := Option.map_eq_some_iff.1 hv
    simp only [optional, Codec.read_option (hc.draft_ne_null a), hc.read_draft, Except.map, ha]
  omitted := by
    intro hnone
    rw [Option.map_eq_none_iff.1 hnone, hopen]
  required := by
    simp [optional]

/-- A list may be left out where setting an empty one changes nothing. -/
theorem restores_entries {get : ρ → List α} {set : List α → ρ → ρ} (hopen : set [] acc = acc) :
    (Field.entries name c get set).Restores r acc (set (get r) acc) where
  written := by
    intro v hv
    simp only [entries] at hv
    split at hv
    · cases hv
    · cases hv
      simp only [entries, hc.list.read_draft, Except.map]
  omitted := by
    intro hnone
    simp only [entries] at hnone
    split at hnone
    · next hempty => rw [List.isEmpty_iff.1 hempty, hopen]
    · cases hnone
  required := by
    simp [entries]

end

end Field

/-! ## Records -/

namespace Schema

/-- The members take a record that is being read from one to the next, if they are written
from `r`. -/
inductive Restores (r : ρ) : List (Field ρ) → ρ → ρ → Prop
  | nil {acc : ρ} : Restores r [] acc acc
  | cons {f : Field ρ} {fs : List (Field ρ)} {acc acc' acc'' : ρ} :
      f.Restores r acc acc' → Restores r fs acc' acc'' → Restores r (f :: fs) acc acc''

/-- Every member is found under its name. -/
def DistinctNames (fields : List (Field ρ)) : Prop :=
  fields.map (fun f => indexOf? fields f.name) = (List.range fields.length).map some

instance (fields : List (Field ρ)) : Decidable (DistinctNames fields) :=
  inferInstanceAs (Decidable (fields.map (fun f => indexOf? fields f.name) = _))

/-- Under its own name a field is found at its position. -/
theorem indexOf?_name {fields : List (Field ρ)} (h : DistinctNames fields) {i : Nat} {f : Field ρ}
    (hf : fields[i]? = some f) : indexOf? fields f.name = some i := by
  obtain ⟨hlt, -⟩ := List.getElem?_eq_some_iff.1 hf
  have hat : (fields.map fun f => indexOf? fields f.name)[i]? =
      ((List.range fields.length).map some)[i]? := congrArg (·[i]?) h
  rw [List.getElem?_map, hf, List.getElem?_map, List.getElem?_range hlt] at hat
  exact Option.some.inj hat

/-- The member of a record, if it is written. -/
def member (r : ρ) (f : Field ρ) : Option (String × Value) :=
  (f.write r).map (f.name, ·)

/-- A member that has not been seen is read under its name. -/
theorem readMembers_cons {fields : List (Field ρ)} (hnames : DistinctNames fields) {k : Nat}
    {f : Field ρ} (hk : fields[k]? = some f) {d : Draft} {acc acc' : ρ}
    (hread : f.read d acc = .ok acc') {seen : List Nat} (hnew : k ∉ seen)
    (ms : List (Quoted × Draft)) : readMembers fields ((.ofText f.name, d) :: ms) seen acc =
      readMembers fields ms (k :: seen) acc' := by
  have hcontains : seen.contains k = false := by simpa using hnew
  simp only [readMembers, Quoted.text_ofText, bind, Except.bind, indexOf?_name hnames hk, hcontains,
    hk, hread]
  rfl

/-- The members that are written from a record are read in order, and each of them is seen. -/
theorem readMembers_restores {fields fs : List (Field ρ)} (hnames : DistinctNames fields)
    {r acc acc' : ρ} (h : Restores r fs acc acc') {k : Nat} (hfs : fields.drop k = fs)
    {seen : List Nat} (hseen : ∀ i ∈ seen, i < k) :
    ∃ seen', readMembers fields (memberDrafts (fs.filterMap (member r))) seen acc =
        .ok (seen', acc') ∧
      (∀ i ∈ seen, i ∈ seen') ∧
        ∀ i f, k ≤ i → fields[i]? = some f → f.write r ≠ none → i ∈ seen' := by
  -- `k` members have been passed, so the next one is at position `k` and not among those seen
  induction h generalizing k seen with
  | nil =>
    refine ⟨seen, rfl, fun _ hi => hi, fun i f hi hf => ?_⟩
    have hlength := List.drop_eq_nil_iff.1 hfs
    have hlt := (List.getElem?_eq_some_iff.1 hf).1
    omega
  | @cons f fs acc acc' acc'' hf _ ih =>
    obtain ⟨hk, hrest⟩ := List.of_drop_eq_cons hfs
    cases hwrite : f.write r with
    | none =>
      obtain ⟨seen', hread, hsub, hall⟩ := ih hrest fun i hi => Nat.lt_succ_of_lt (hseen i hi)
      have hmember : member r f = none := by rw [member, hwrite, Option.map_none]
      rw [List.filterMap_cons_none hmember, ← hf.omitted hwrite]
      refine ⟨seen', hread, hsub, fun i g hi hg hwritten => ?_⟩
      rcases Nat.eq_or_lt_of_le hi with rfl | hlt
      · obtain rfl : f = g := Option.some.inj (hk.symm.trans hg)
        exact absurd hwrite hwritten
      · exact hall i g hlt hg hwritten
    | some v =>
      have hnext : ∀ i ∈ k :: seen, i < k + 1 := by
        simpa using fun i hi => Nat.lt_succ_of_lt (hseen i hi)
      obtain ⟨seen', hread, hsub, hall⟩ := ih hrest hnext
      have hmember : member r f = some (f.name, v) := by rw [member, hwrite, Option.map_some]
      have hnew : k ∉ seen := fun hmem => Nat.lt_irrefl k (hseen k hmem)
      rw [List.forall_mem_cons] at hsub
      rw [List.filterMap_cons_some hmember, memberDrafts,
        readMembers_cons hnames hk (hf.written v hwrite) hnew]
      refine ⟨seen', hread, hsub.2, fun i g hi hg hwritten => ?_⟩
      rcases Nat.eq_or_lt_of_le hi with rfl | hlt
      · exact hsub.1
      · exact hall i g hlt hg hwritten

/-- A member that a document has to give is written. -/
theorem Restores.write_ne_none {fs : List (Field ρ)} {r acc acc' : ρ}
    (h : Restores r fs acc acc') : ∀ f ∈ fs, f.required = true → f.write r ≠ none := by
  induction h with
  | nil => simp
  | cons hf _ ih => exact List.forall_mem_cons.2 ⟨hf.required, ih⟩

/-- Nothing is missing just when all required members are among those seen. -/
theorem complete_eq_true {fields : List (Field ρ)} {seen : List Nat} :
    complete fields seen = true ↔
      ∀ i f, fields[i]? = some f → f.required = true → i ∈ seen := by
  rw [complete, List.all_eq_true]
  constructor
  · intro h i f hf hrequired
    have hseen := h (f, i) (List.mem_zipIdx_iff_getElem?.2 hf)
    simpa [hrequired] using hseen
  · rintro h ⟨f, i⟩ hf
    have hseen := h i f (List.mem_zipIdx_iff_getElem?.1 hf)
    cases hrequired : f.required with
    | false => simp [hrequired]
    | true => simpa [hrequired] using hseen hrequired

/-- Records are read as they are written if every member is restored in turn. -/
theorem lawful_codec {s : Schema ρ} (hnames : DistinctNames s.fields)
    (hrestores : ∀ r, Restores r s.fields s.blank r) : s.codec.Lawful where
  read_draft r := by
    obtain ⟨seen, hread, -, hall⟩ :=
      readMembers_restores hnames (hrestores r) List.drop_zero (List.forall_mem_nil (· < 0))
    have hcomplete : complete s.fields seen = true := by
      refine complete_eq_true.2 fun i f hi hrequired => ?_
      have hwritten := (hrestores r).write_ne_none f (List.mem_of_getElem? hi) hrequired
      exact hall i f (Nat.zero_le i) hi hwritten
    have hwrite : s.codec.write r = .record (s.fields.filterMap (member r)) := rfl
    rw [hwrite, Value.draft]
    simp only [codec, hread, bind, Except.bind, hcomplete, if_true]
  draft_ne_null r := by
    simp [codec, Value.draft]

end Schema

/-! ## Documents -/

/-- A document is read as its draft is, if only blanks follow it. -/
theorem Codec.parse_of_draft {c : Codec α} {text : String} {d : Draft}
    (h : draft text.toList = (d, false)) : c.parse text = c.read d := by
  rw [Codec.parse, h]
  cases hread : c.read d <;> simp [hread, bind, Except.bind]

namespace Codec.Lawful

variable {c : Codec α} (hc : c.Lawful) (a : α)
include hc

/-- A document is read whatever blanks stand between its tokens and behind it. -/
theorem parse_chars {l : Layout} (hl : l.IsBlank) {ws : List Char}
    (hws : ∀ c ∈ ws, isSpace c = true) :
    c.parse (String.ofList ((c.write a).chars l 0 ++ ws)) = .ok a := by
  have hdraft : draft (String.ofList ((c.write a).chars l 0 ++ ws)).toList =
      ((c.write a).draft, false) := by
    rw [String.toList_ofList, draft_chars hl _ hws]
  rw [parse_of_draft hdraft, hc.read_draft]

/-- A value is read back from its compact document. -/
theorem parse_compact : c.parse (c.compact a) = .ok a := by
  have hread := hc.parse_chars a isBlank_compactLayout (List.forall_mem_nil _)
  rwa [List.append_nil] at hread

/-- A value is read back from its pretty document, with the line break behind it. -/
theorem parse_pretty : c.parse (c.pretty a ++ "\n") = .ok a := by
  have hbreak : ∀ c ∈ ['\n'], isSpace c = true := List.forall_mem_singleton.2 rfl
  have hread := hc.parse_chars a isBlank_prettyLayout hbreak
  rwa [String.ofList_append] at hread

end Codec.Lawful

end TunnelMesh.Json
