import Mathlib
import TunnelMesh.Json.Draft
import TunnelMesh.Proofs.Json.Token

/-!
# Printed values are read back

Whatever blanks a layout puts between them, the tokens of a printed value are those of the value
(`lex_chars`), and the machine makes of them the draft that says the same (`run_tokens`). So the
draft of a document is that of the value it was printed from, and nothing follows it but blanks
(`draft_chars`).
-/

namespace TunnelMesh.Json

/-- A value is built up from its entries or members. -/
@[elab_as_elim]
theorem Value.induction {motive : Value → Prop} (null : motive .null)
    (bool : ∀ b, motive (.bool b)) (number : ∀ n, motive (.number n))
    (text : ∀ s, motive (.text s)) (list : ∀ vs, (∀ v ∈ vs, motive v) → motive (.list vs))
    (record : ∀ ms, (∀ m ∈ ms, motive m.2) → motive (.record ms)) : ∀ v, motive v
  | .null => null
  | .bool b => bool b
  | .number n => number n
  | .text s => text s
  | .list vs => list vs fun v _ => induction null bool number text list record v
  | .record ms => record ms fun m _ => induction null bool number text list record m.2
termination_by v => sizeOf v
decreasing_by
  · next hv =>
    have := List.sizeOf_lt_of_mem hv
    simp only [Value.list.sizeOf_spec]
    omega
  · next hm =>
    have := List.sizeOf_lt_of_mem hm
    obtain ⟨k, v⟩ := m
    simp only [Value.record.sizeOf_spec, Prod.mk.sizeOf_spec] at this ⊢
    omega

/-! ## Tokens -/

mutual

/-- The tokens of a value. -/
def Value.tokens : Value → List Token
  | .null => [.null]
  | .bool b => [.bool b]
  | .number n => [.number (.ofNat n)]
  | .text s => [.text (.ofText s)]
  | .list vs => .openList :: (entryTokens vs ++ [.closeList])
  | .record ms => .openRecord :: (memberTokens ms ++ [.closeRecord])

/-- The tokens of the entries of a list. -/
def entryTokens : List Value → List Token
  | [] => []
  | [v] => v.tokens
  | v :: vs => v.tokens ++ .comma :: entryTokens vs

/-- The tokens of the members of a record. -/
def memberTokens : List (String × Value) → List Token
  | [] => []
  | [(k, v)] => .text (.ofText k) :: .colon :: v.tokens
  | (k, v) :: ms => .text (.ofText k) :: .colon :: (v.tokens ++ .comma :: memberTokens ms)

end

/-- A layout puts nothing but blanks between tokens. -/
structure Layout.IsBlank (l : Layout) : Prop where
  line : ∀ depth, ∀ c ∈ l.line depth, isSpace c = true
  gap : ∀ c ∈ l.gap, isSpace c = true

/-- The compact layout puts nothing but blanks between tokens. -/
theorem isBlank_compactLayout : compactLayout.IsBlank where
  line := by simp [compactLayout]
  gap := by simp [compactLayout]

theorem isBlank_prettyLayout : prettyLayout.IsBlank where
  line := by simp +contextual [prettyLayout, List.mem_replicate, isSpace]
  gap := by simp [prettyLayout, isSpace]

/-- No number goes on where blanks stand, if none does behind them. -/
theorem delimited_blanks {ws rest : List Char} (hws : ∀ c ∈ ws, isSpace c = true)
    (hrest : Delimited rest) : Delimited (ws ++ rest) := by
  cases ws with
  | nil => exact hrest
  | cons c ws =>
    have hc := hws c List.mem_cons_self
    simp only [isSpace, Bool.or_eq_true, beq_iff_eq] at hc
    rcases hc with ((rfl | rfl) | rfl) | rfl <;> exact delimited_cons (by decide) _

section

variable {l : Layout} (hl : l.IsBlank)
include hl

/-- The tokens of written entries are those of the entries, if each entry has its own. -/
theorem lex_entryChars {vs : List Value} (depth : Nat) {rest : List Char}
    (hvs : ∀ v ∈ vs, ∀ depth rest, Delimited rest →
      lex (v.chars l depth ++ rest) = v.tokens ++ lex rest) (hrest : Delimited rest) :
    lex (entryChars l depth vs ++ rest) = entryTokens vs ++ lex rest := by
  induction vs with
  | nil => rfl
  | cons v vs ih =>
    rw [List.forall_mem_cons] at hvs
    cases vs with
    | nil =>
      rw [entryChars, entryTokens, List.append_assoc, lex_blanks (hl.line depth),
        hvs.1 depth rest hrest]
    | cons v' vs =>
      have hcomma : Delimited (',' :: (entryChars l depth (v' :: vs) ++ rest)) :=
        delimited_cons (by decide) _
      rw [entryChars, entryTokens, List.append_assoc, lex_blanks (hl.line depth),
        List.append_assoc, List.cons_append, hvs.1 depth _ hcomma, lex_cons rfl rfl, ih hvs.2,
        List.append_assoc, List.cons_append]
      all_goals simp

/-- The tokens of written members are those of the members, if each value has its own. -/
theorem lex_memberChars {ms : List (String × Value)} (depth : Nat) {rest : List Char}
    (hms : ∀ m ∈ ms, ∀ depth rest, Delimited rest →
      lex (m.2.chars l depth ++ rest) = m.2.tokens ++ lex rest) (hrest : Delimited rest) :
    lex (memberChars l depth ms ++ rest) = memberTokens ms ++ lex rest := by
  induction ms with
  | nil => rfl
  | cons m ms ih =>
    obtain ⟨k, v⟩ := m
    rw [List.forall_mem_cons] at hms
    cases ms with
    | nil =>
      rw [memberChars, memberTokens, List.append_assoc, lex_blanks (hl.line depth),
        List.append_assoc, lex_quoted, List.cons_append, lex_cons rfl rfl, List.append_assoc,
        lex_blanks hl.gap, hms.1 depth rest hrest]
      rfl
    | cons m' ms =>
      have hcomma : Delimited (',' :: (memberChars l depth (m' :: ms) ++ rest)) :=
        delimited_cons (by decide) _
      rw [memberChars, memberTokens, List.append_assoc, lex_blanks (hl.line depth),
        List.append_assoc, lex_quoted, List.cons_append, lex_cons rfl rfl, List.append_assoc,
        lex_blanks hl.gap, List.append_assoc, List.cons_append, hms.1 depth _ hcomma,
        lex_cons rfl rfl, ih hms.2]
      all_goals simp

/-- The tokens of a printed value are those of the value. -/
theorem lex_chars (v : Value) : ∀ (depth : Nat) (rest : List Char), Delimited rest →
    lex (v.chars l depth ++ rest) = v.tokens ++ lex rest := by
  -- a number inside a list or record ends before the blanks of the closing bracket's line
  have hclosing : ∀ (depth : Nat) (c : Char) (rest : List Char),
      (c.isDigit = false ∧ c ≠ '.' ∧ c ≠ 'e' ∧ c ≠ 'E') → Delimited (l.line depth ++ c :: rest) :=
    fun depth c rest hc => delimited_blanks (hl.line depth) (delimited_cons hc rest)
  induction v using Value.induction with
  | null => exact fun _ _ _ => lex_cons rfl rfl
  | bool b => cases b <;> exact fun _ _ _ => lex_cons rfl rfl
  | number n => exact fun _ _ hrest => lex_digits n hrest
  | text s => exact fun _ rest _ => lex_quoted s rest
  | list vs ih =>
    intro depth rest _
    cases vs with
    | nil =>
      exact (lex_cons rfl rfl).trans (congrArg _ (lex_cons rfl rfl))
    | cons v vs =>
      rw [Value.chars, Value.tokens, List.cons_append, lex_cons rfl rfl, List.append_assoc,
        List.append_assoc, List.singleton_append,
        lex_entryChars hl _ ih (hclosing depth ']' rest (by decide)),
        lex_blanks (hl.line depth), lex_cons rfl rfl, List.cons_append, List.append_assoc]
      rfl
  | record ms ih =>
    intro depth rest _
    cases ms with
    | nil =>
      exact (lex_cons rfl rfl).trans (congrArg _ (lex_cons rfl rfl))
    | cons m ms =>
      rw [Value.chars, Value.tokens, List.cons_append, lex_cons rfl rfl, List.append_assoc,
        List.append_assoc, List.singleton_append,
        lex_memberChars hl _ ih (hclosing depth '\x7d' rest (by decide)),
        lex_blanks (hl.line depth), lex_cons rfl rfl, List.cons_append, List.append_assoc]
      rfl

end

/-! ## Drafts -/

mutual

/-- What a text says that is printed from a value. -/
def Value.draft : Value → Draft
  | .null => .null
  | .bool b => .bool b
  | .number n => .number (.ofNat n)
  | .text s => .text (.ofText s)
  | .list vs => .list (entryDrafts vs) none
  | .record ms => .record (memberDrafts ms) .closed

/-- What is said by the entries of a list. -/
def entryDrafts : List Value → List Draft
  | [] => []
  | v :: vs => v.draft :: entryDrafts vs

/-- What is said by the members of a record. -/
def memberDrafts : List (String × Value) → List (Quoted × Draft)
  | [] => []
  | (k, v) :: ms => (.ofText k, v.draft) :: memberDrafts ms

end

/-- The drafts of entries are drafted one by one. -/
theorem entryDrafts_eq_map (vs : List Value) : entryDrafts vs = vs.map Value.draft := by
  induction vs with
  | nil => rfl
  | cons v vs ih => rw [entryDrafts, ih, List.map_cons]

theorem run_cons (s : State) (t : Token) (ts : List Token) : run s (t :: ts) = run (s.step t) ts :=
  rfl

/-- Tokens behind others are taken in the state that those lead to. -/
theorem run_append (s : State) (ts ts' : List Token) : run s (ts ++ ts') = run (run s ts) ts' :=
  List.foldl_append

/-- A value does not begin as a list ends. -/
theorem exists_tokens_eq_cons (v : Value) : ∃ t ts, v.tokens = t :: ts ∧ t ≠ .closeList := by
  cases v <;> exact ⟨_, _, by rw [Value.tokens], by simp⟩

/-- Entries begin with a token that does not close their list. -/
theorem exists_entryTokens_eq_cons (v : Value) (vs : List Value) :
    ∃ t ts, entryTokens (v :: vs) = t :: ts ∧ t ≠ .closeList := by
  obtain ⟨t, ts, htokens, hclose⟩ := exists_tokens_eq_cons v
  cases vs with
  | nil => exact ⟨t, ts, by rw [entryTokens, htokens], hclose⟩
  | cons v' vs =>
    refine ⟨t, ts ++ .comma :: entryTokens (v' :: vs), ?_, hclose⟩
    rw [entryTokens, htokens, List.cons_append]
    simp

/-- The first entry of a list is read as every other. -/
theorem run_firstItem {t : Token} (h : t ≠ .closeList) (ts : List Token) (fs : List Frame) :
    run (.firstItem fs) (t :: ts) = run (.value (.list [] :: fs)) (t :: ts) := by
  rw [run_cons, run_cons]
  cases t <;> first | rfl | contradiction

/-- A name and a colon stand before the value of a member. -/
theorem run_name (members : List (Quoted × Draft)) (k : Quoted) (ts : List Token)
    (fs : List Frame) : run (.name members fs) (.text k :: .colon :: ts) =
      run (.value (.record members k :: fs)) ts := by
  cases members <;> rfl

/-- The entries of an open list are added to it until it is closed. -/
theorem run_entryTokens {vs : List Value} (hne : vs ≠ [])
    (hvs : ∀ v ∈ vs, ∀ fs, run (.value fs) v.tokens = .after v.draft fs) (items : List Draft)
    (fs : List Frame) :
    run (.value (.list items :: fs)) (entryTokens vs ++ [.closeList]) =
      .after (.list (items.reverse ++ entryDrafts vs) none) fs := by
  induction vs generalizing items with
  | nil => exact absurd rfl hne
  | cons v vs ih =>
    rw [List.forall_mem_cons] at hvs
    cases vs with
    | nil =>
      rw [entryTokens, run_append, hvs.1, entryDrafts, entryDrafts, ← List.reverse_cons]
      rfl
    | cons v' vs =>
      have hrest := ih (List.cons_ne_nil v' vs) hvs.2 (v.draft :: items)
      rw [List.reverse_cons, List.append_assoc, List.singleton_append] at hrest
      rw [entryTokens, List.append_assoc, run_append, hvs.1, entryDrafts, ← hrest]
      · rfl
      · simp

/-- The members of an open record are added to it until it is closed. -/
theorem run_memberTokens {ms : List (String × Value)} (hne : ms ≠ [])
    (hms : ∀ m ∈ ms, ∀ fs, run (.value fs) m.2.tokens = .after m.2.draft fs)
    (members : List (Quoted × Draft)) (fs : List Frame) :
    run (.name members fs) (memberTokens ms ++ [.closeRecord]) =
      .after (.record (members.reverse ++ memberDrafts ms) .closed) fs := by
  induction ms generalizing members with
  | nil => exact absurd rfl hne
  | cons m ms ih =>
    obtain ⟨k, v⟩ := m
    rw [List.forall_mem_cons] at hms
    cases ms with
    | nil =>
      rw [memberTokens, List.cons_append, List.cons_append, run_name, run_append, hms.1,
        memberDrafts, memberDrafts, ← List.reverse_cons]
      rfl
    | cons m' ms =>
      have hrest := ih (List.cons_ne_nil m' ms) hms.2 ((.ofText k, v.draft) :: members)
      rw [List.reverse_cons, List.append_assoc, List.singleton_append] at hrest
      rw [memberTokens, List.cons_append, List.cons_append, run_name, List.append_assoc,
        run_append, hms.1, memberDrafts, ← hrest]
      · rfl
      · simp

/-- The machine reads a value from its tokens, whatever is open around it. -/
theorem run_tokens (v : Value) : ∀ fs, run (.value fs) v.tokens = .after v.draft fs := by
  induction v using Value.induction with
  | null => exact fun _ => rfl
  | bool b => exact fun _ => rfl
  | number n => exact fun _ => rfl
  | text s => exact fun _ => rfl
  | list vs ih =>
    intro fs
    cases vs with
    | nil => rfl
    | cons v vs =>
      obtain ⟨t, ts, htokens, hclose⟩ := exists_entryTokens_eq_cons v vs
      have hitems := run_entryTokens (List.cons_ne_nil v vs) ih [] fs
      rw [htokens, List.cons_append, ← run_firstItem hclose] at hitems
      rw [Value.tokens, htokens, run_cons, Value.draft]
      exact hitems
  | record ms ih =>
    intro fs
    cases ms with
    | nil => rfl
    | cons m ms =>
      rw [Value.tokens, run_cons, Value.draft]
      exact run_memberTokens (List.cons_ne_nil m ms) ih [] fs

/-- What a document says is what the value says that it was printed from, and only blanks
follow. -/
theorem draft_chars {l : Layout} (hl : l.IsBlank) (v : Value) {ws : List Char}
    (hws : ∀ c ∈ ws, isSpace c = true) : draft (v.chars l 0 ++ ws) = (v.draft, false) := by
  have hend : Delimited ws := by
    simpa using delimited_blanks hws delimited_nil
  have hblank : lex ws = [] := by
    simpa using lex_blanks hws []
  rw [draft, lex_chars hl v 0 ws hend, hblank, List.append_nil, run_tokens]
  rfl

end TunnelMesh.Json
