import Mathlib
import TunnelMesh.Proofs.Json.Members

/-!
# Rewriting documents

A document may be rewritten and still say the same: `Schema.Rewrite` lists what may be done to a
record, given what may be done to the values of its members, and `Names.Rewrite` and
`Entries.Rewrite` do so for names from a fixed set and for lists. `Codec.Preserves` says that a
reader does not notice. It holds of records one case at a time (`Schema.preserves`), and each case
is about the record that the members give, whatever their order.
-/

namespace TunnelMesh.Json

/-! ## Values that may be skipped -/

/-- A value with no fault in it. The pieces of its texts need not form characters, and its numbers
may be of any size. -/
inductive Draft.IsWhole : Draft → Prop
  | null : IsWhole .null
  | bool (b : Bool) : IsWhole (.bool b)
  | number (n : Numeral) : IsWhole (.number n)
  | text {q : Quoted} : q.defect = none → IsWhole (.text q)
  | list {items : List Draft} : (∀ d ∈ items, d.IsWhole) → IsWhole (.list items none)
  | record {members : List (Quoted × Draft)} : (∀ m ∈ members, m.1.defect = none) →
      (∀ m ∈ members, m.2.IsWhole) → IsWhole (.record members .closed)

/-- Entries are skipped just when each of them is. -/
theorem skipItems_eq_none {ds : List Draft} : skipItems ds = none ↔ ∀ d ∈ ds, d.skip = none := by
  induction ds with
  | nil => simp [skipItems]
  | cons d ds ih => rw [skipItems, Option.or_eq_none_iff, ih, List.forall_mem_cons]

theorem skipMembers_eq_none {ms : List (Quoted × Draft)} :
    skipMembers ms = none ↔ ∀ m ∈ ms, m.1.defect = none ∧ m.2.skip = none := by
  induction ms with
  | nil => simp [skipMembers]
  | cons m ms ih =>
    rw [skipMembers, Option.or_eq_none_iff, Option.or_eq_none_iff, ih, List.forall_mem_cons,
      and_assoc]

/-- A value without a fault is skipped without one. -/
theorem Draft.IsWhole.skip_eq_none {d : Draft} (h : d.IsWhole) : d.skip = none := by
  induction h with
  | null | bool | number => rfl
  | text h => exact h
  | list _ ih =>
    rw [skip, skipItems_eq_none.2 ih]
    rfl
  | record hkeys _ ih =>
    rw [skip, skipMembers_eq_none.2 fun m hm => ⟨hkeys m hm, ih m hm⟩]
    rfl

/-! ## Readers that do not notice -/

namespace Codec

variable {α : Type} {c : Codec α} {R : Draft → Draft → Prop}

/-- What is read stays the same when it is rewritten. -/
def Preserves (c : Codec α) (R : Draft → Draft → Prop) : Prop :=
  ∀ d d' a, R d d' → c.read d = .ok a → c.read d' = .ok a

/-- A document may be rewritten any number of times. -/
theorem Preserves.reflTransGen (h : c.Preserves R) : c.Preserves (Relation.ReflTransGen R) := by
  intro d d' a hsteps hread
  induction hsteps with
  | refl => exact hread
  | tail _ hstep ih => exact h _ _ a hstep ih

end Codec

/-- What is read into a member stays the same when it is rewritten. -/
def Field.Preserves {ρ : Type} (f : Field ρ) (R : Draft → Draft → Prop) : Prop :=
  ∀ d d' r r', R d d' → f.read d r = .ok r' → f.read d' r = .ok r'

/-- A member that is always written is rewritten as its values are. -/
theorem Field.preserves_always {ρ α : Type} {c : Codec α} {R : Draft → Draft → Prop}
    (h : c.Preserves R) {name : String} {aliases : List String} {required : Bool} {get : ρ → α}
    {set : α → ρ → ρ} : (Field.always name aliases required c get set).Preserves R := by
  intro d d' r r' hR hread
  cases hd : c.read d with
  | error => simp [Field.always, hd, Except.map] at hread
  | ok a => simpa [Field.always, hd, h d d' a hR hd] using hread

/-! ## Lists -/

/-- One entry of a list is rewritten. -/
inductive Entries.Rewrite (R : Draft → Draft → Prop) : Draft → Draft → Prop
  | entry {before after : List Draft} {d d' : Draft} : R d d' →
      Rewrite R (.list (before ++ d :: after) none) (.list (before ++ d' :: after) none)

/-- An entry may be rewritten any number of times. -/
theorem Entries.rewrite_entry {R : Draft → Draft → Prop} {d d' : Draft}
    (h : Relation.ReflTransGen R d d') (before after : List Draft) :
    Relation.ReflTransGen (Entries.Rewrite R) (.list (before ++ d :: after) none)
      (.list (before ++ d' :: after) none) :=
  h.lift (fun d => Draft.list (before ++ d :: after) none) fun _ _ => Rewrite.entry

/-- The entries of a list are read from the first one on. -/
theorem Codec.readItems_cons_eq_ok {α : Type} {read : Draft → Except Defect α} {d : Draft}
    {ds : List Draft} {as : List α} : readItems read (d :: ds) = .ok as ↔
      ∃ a as', read d = .ok a ∧ readItems read ds = .ok as' ∧ as = a :: as' := by
  simp only [readItems, Except.bind_eq_ok, pure, Except.pure, Except.ok.injEq, exists_and_left,
    @eq_comm _ as]

theorem Codec.list_read_eq_ok {α : Type} {c : Codec α} {items : List Draft} {as : List α} :
    c.list.read (.list items none) = .ok as ↔ readItems c.read items = .ok as := by
  simp [Codec.list, Except.bind_eq_ok]

/-- Lists are rewritten as their entries are. -/
theorem Codec.Preserves.list {α : Type} {c : Codec α} {R : Draft → Draft → Prop}
    (h : c.Preserves R) : c.list.Preserves (Entries.Rewrite R) := by
  intro _ _ as hstep hread
  cases hstep with
  | @entry before after d d' hentry =>
    rw [list_read_eq_ok] at hread ⊢
    induction before generalizing as with
    | nil =>
      obtain ⟨a, rest, hd, hrest, rfl⟩ := readItems_cons_eq_ok.1 hread
      exact readItems_cons_eq_ok.2 ⟨a, rest, h d d' a hentry hd, hrest, rfl⟩
    | cons e before ih =>
      obtain ⟨a, rest, he, hrest, rfl⟩ := readItems_cons_eq_ok.1 hread
      exact readItems_cons_eq_ok.2 ⟨a, rest, he, ih rest hrest, rfl⟩

/-! ## Names from a fixed set -/

/-- Two texts are names of one value. -/
def Names.Synonyms {α : Type} (names : List (String × α)) (q q' : Quoted) : Prop :=
  ∃ name name' a, q.text = .ok name ∧ q'.text = .ok name' ∧
    names.lookup name = some a ∧ names.lookup name' = some a

/-- A name is replaced by another one of the same value, in either form. -/
inductive Names.Rewrite {α : Type} (names : List (String × α)) : Draft → Draft → Prop
  | text {q q' : Quoted} : Names.Synonyms names q q' → Rewrite names (.text q) (.text q')
  | record {q q' : Quoted} : Names.Synonyms names q q' →
      Rewrite names (.record [(q, .null)] .closed) (.record [(q', .null)] .closed)

/-- A name is read just when it is one of the fixed set. -/
theorem Codec.readName_eq_ok {α : Type} {names : List (String × α)} {q : Quoted} {a : α} :
    readName names q = .ok a ↔ ∃ name, q.text = .ok name ∧ names.lookup name = some a := by
  rw [readName, Except.bind_eq_ok]
  refine exists_congr fun name => and_congr_right fun _ => ?_
  cases names.lookup name <;> simp

/-- Names that stand for one value are read alike. -/
theorem Names.Synonyms.readName_eq {α : Type} {names : List (String × α)} {q q' : Quoted}
    (h : Synonyms names q q') : Codec.readName names q' = Codec.readName names q := by
  obtain ⟨name, name', a, hq, hq', hname, hname'⟩ := h
  rw [Codec.readName_eq_ok.2 ⟨name, hq, hname⟩, Codec.readName_eq_ok.2 ⟨name', hq', hname'⟩]

/-- Values that are given by name may be given by another one of their names. -/
theorem Codec.preserves_named {α : Type} {names : List (String × α)} {nameOf : α → String} :
    (Codec.named names nameOf).Preserves (Names.Rewrite names) := by
  intro _ _ a hstep hread
  cases hstep with
  | text hnames => exact hnames.readName_eq.trans hread
  | record hnames => simpa only [named, hnames.readName_eq] using hread

/-! ## Records -/

/-- A value is the one that a field has in a record where it is left out. -/
def Field.IsDefault {ρ : Type} (f : Field ρ) (blank : ρ) (d : Draft) : Prop :=
  f.read d blank = .ok blank

namespace Schema

variable {ρ : Type} {s : Schema ρ}

/-- What members say about a field: the value that one of them gives, or else the default. -/
def Gives (s : Schema ρ) (ms : List (Quoted × Draft)) (f : Field ρ) (d : Draft) : Prop :=
  (∃ k, (k, d) ∈ ms ∧ f.IsNamed k) ∨ ((∀ m ∈ ms, ¬ f.IsNamed m.1) ∧ f.IsDefault s.blank d)

/-- One thing is done to a record, or to the value of one of its members as far as `inner` allows,
which says for names of fields how their values may be rewritten. -/
inductive Rewrite (s : Schema ρ) (inner : List (String × (Draft → Draft → Prop))) :
    Draft → Draft → Prop
  /-- The members are put into another order. -/
  | reorder {ms ms' : List (Quoted × Draft)} : ms.Perm ms' →
      Rewrite s inner (.record ms .closed) (.record ms' .closed)
  /-- A key is replaced by another name of its field. -/
  | rename {before after : List (Quoted × Draft)} {f : Field ρ} {k k' : Quoted} {d : Draft} :
      f ∈ s.fields → f.IsNamed k → f.IsNamed k' →
      Rewrite s inner (.record (before ++ (k, d) :: after) .closed)
        (.record (before ++ (k', d) :: after) .closed)
  /-- A member is added whose key no field has for a name. -/
  | insert {before after : List (Quoted × Draft)} {name : String} {k : Quoted} {d : Draft} :
      k.text = .ok name → (∀ f ∈ s.fields, f.answersTo name = false) → d.IsWhole →
      Rewrite s inner (.record (before ++ after) .closed)
        (.record (before ++ (k, d) :: after) .closed)
  /-- A member is left out whose value is the default of its field. -/
  | drop {before after : List (Quoted × Draft)} {f : Field ρ} {k : Quoted} {d : Draft} :
      f ∈ s.fields → f.IsNamed k → f.required = false → f.IsDefault s.blank d →
      Rewrite s inner (.record (before ++ (k, d) :: after) .closed)
        (.record (before ++ after) .closed)
  /-- The record is written as the list of the values of all fields in order. -/
  | asList {ms : List (Quoted × Draft)} {items : List Draft} :
      List.Forall₂ (s.Gives ms) s.fields items →
      Rewrite s inner (.record ms .closed) (.list items none)
  /-- The value of a member is rewritten. -/
  | member {before after : List (Quoted × Draft)} {f : Field ρ} {k : Quoted} {d d' : Draft}
      {R : Draft → Draft → Prop} : f ∈ s.fields → f.IsNamed k → (f.name, R) ∈ inner → R d d' →
      Rewrite s inner (.record (before ++ (k, d) :: after) .closed)
        (.record (before ++ (k, d') :: after) .closed)
  /-- The value at the position of a field is rewritten in a record that is written as a list. -/
  | item {before after : List Draft} {f : Field ρ} {d d' : Draft} {R : Draft → Draft → Prop} :
      s.fields[before.length]? = some f → (f.name, R) ∈ inner → R d d' →
      Rewrite s inner (.list (before ++ d :: after) none) (.list (before ++ d' :: after) none)

/-- The value of a member may be rewritten any number of times. -/
theorem rewrite_member {inner : List (String × (Draft → Draft → Prop))} {f : Field ρ}
    {R : Draft → Draft → Prop} (hf : f ∈ s.fields) (hR : (f.name, R) ∈ inner) {k : Quoted}
    (hk : f.IsNamed k) {d d' : Draft} (h : Relation.ReflTransGen R d d')
    (before after : List (Quoted × Draft)) : Relation.ReflTransGen (s.Rewrite inner)
      (.record (before ++ (k, d) :: after) .closed)
      (.record (before ++ (k, d') :: after) .closed) :=
  h.lift (fun d => Draft.record (before ++ (k, d) :: after) .closed) fun _ _ =>
    Rewrite.member hf hk hR

/-! ### Each rewriting keeps the record -/

/-- A member of a field among others, wherever it stands: it may be read first. -/
theorem reads_middle_iff (hs : s.Unordered) {i : Nat} {f : Field ρ} (hi : s.fields[i]? = some f)
    {k : Quoted} (hk : f.IsNamed k) {d : Draft} {before after : List (Quoted × Draft)} {r : ρ} :
    s.Reads (before ++ (k, d) :: after) r ↔
      (∀ m ∈ before ++ after, Readable s.fields m) ∧
        (i :: (known s.fields (before ++ after)).map Prod.fst).Nodup ∧
          (∀ j g, s.fields[j]? = some g → g.required = true →
            j ∈ i :: (known s.fields (before ++ after)).map Prod.fst) ∧
          ∃ r₁, f.read d s.blank = .ok r₁ ∧
            readAll s.fields (known s.fields (before ++ after)) r₁ = .ok r := by
  have hfirst : s.Reads (before ++ (k, d) :: after) r ↔ s.Reads ((k, d) :: (before ++ after)) r :=
    ⟨fun h => h.perm hs List.perm_middle, fun h => h.perm hs List.perm_middle.symm⟩
  have hknown := (@known?_eq_some _ _ hs.unambiguous (k, d) i d).2 ⟨rfl, f, hi, hk⟩
  have hreadable : Readable s.fields (k, d) := by
    obtain ⟨name, htext, hanswers⟩ := hk
    refine ⟨name, htext, fun hindex => ?_⟩
    rw [indexOf?_eq_none.1 hindex f (List.mem_of_getElem? hi)] at hanswers
    cases hanswers
  have hread : readAt s.fields (i, d) s.blank = f.read d s.blank := by
    rw [readAt, hi]
  rw [hfirst]
  constructor
  · rintro ⟨hms, hnodup, hcomplete, hall⟩
    rw [known_cons_some hknown] at hnodup hcomplete hall
    rw [readAll_cons, Except.bind_eq_ok, hread] at hall
    exact ⟨(List.forall_mem_cons.1 hms).2, hnodup, hcomplete, hall⟩
  · rintro ⟨hms, hnodup, hcomplete, hall⟩
    rw [← hread, ← Except.bind_eq_ok] at hall
    refine ⟨List.forall_mem_cons.2 ⟨hreadable, hms⟩, ?_, ?_, ?_⟩
    all_goals rw [known_cons_some hknown]
    · exact hnodup
    · exact hcomplete
    · rwa [readAll_cons]

namespace Reads

variable {before after : List (Quoted × Draft)} {k k' : Quoted} {d d' : Draft} {r : ρ}
  {f : Field ρ}

/-- A member may be given under another one of its names. -/
theorem rename (hs : s.Unordered) (h : s.Reads (before ++ (k, d) :: after) r) (hf : f ∈ s.fields)
    (hk : f.IsNamed k) (hk' : f.IsNamed k') : s.Reads (before ++ (k', d) :: after) r := by
  obtain ⟨i, hi⟩ := List.mem_iff_getElem?.1 hf
  exact (reads_middle_iff hs hi hk').2 ((reads_middle_iff hs hi hk).1 h)

/-- A member that the record does not know may be put in anywhere. -/
theorem insert (h : s.Reads (before ++ after) r) {name : String} (htext : k.text = .ok name)
    (hname : ∀ f ∈ s.fields, f.answersTo name = false) (hd : d.IsWhole) :
    s.Reads (before ++ (k, d) :: after) r := by
  have hunknown : known? s.fields (k, d) = none := by
    rw [known?_of_text htext, indexOf?_eq_none.2 hname, Option.map_none]
  have hknown : known s.fields (before ++ (k, d) :: after) = known s.fields (before ++ after) := by
    simp only [known, List.filterMap_append, List.filterMap_cons_none hunknown]
  have hreadable := h.readable
  rw [List.forall_mem_append] at hreadable
  refine h.of_known_eq hknown ?_
  rw [List.forall_mem_append, List.forall_mem_cons]
  exact ⟨hreadable.1, ⟨name, htext, fun _ => hd.skip_eq_none⟩, hreadable.2⟩

/-- A member that gives what the record has without it may be left out. -/
theorem drop (hs : s.Unordered) (h : s.Reads (before ++ (k, d) :: after) r) (hf : f ∈ s.fields)
    (hk : f.IsNamed k) (hrequired : f.required = false) (hd : f.IsDefault s.blank d) :
    s.Reads (before ++ after) r := by
  obtain ⟨i, hi⟩ := List.mem_iff_getElem?.1 hf
  obtain ⟨hms, hnodup, hcomplete, r₁, hr₁, hall⟩ := (reads_middle_iff hs hi hk).1 h
  obtain rfl : s.blank = r₁ := Except.ok.inj (hd.symm.trans hr₁)
  refine ⟨hms, (List.nodup_cons.1 hnodup).2, fun j g hj hg => ?_, hall⟩
  rcases List.mem_cons.1 (hcomplete j g hj hg) with rfl | hmem
  · obtain rfl : f = g := Option.some.inj (hi.symm.trans hj)
    rw [hrequired] at hg
    cases hg
  · exact hmem

/-- A member may be rewritten where it stands. -/
theorem member (hs : s.Unordered) (h : s.Reads (before ++ (k, d) :: after) r) (hf : f ∈ s.fields)
    (hk : f.IsNamed k) {R : Draft → Draft → Prop} (hR : f.Preserves R) (hd : R d d') :
    s.Reads (before ++ (k, d') :: after) r := by
  obtain ⟨i, hi⟩ := List.mem_iff_getElem?.1 hf
  obtain ⟨hms, hnodup, hcomplete, r₁, hr₁, hall⟩ := (reads_middle_iff hs hi hk).1 h
  exact (reads_middle_iff hs hi hk).2 ⟨hms, hnodup, hcomplete, r₁, hR d d' _ r₁ hd hr₁, hall⟩

theorem mem_known (hs : s.Unordered) {ms : List (Quoted × Draft)} {i : Nat}
    (hi : s.fields[i]? = some f) (hk : f.IsNamed k) (hm : (k, d) ∈ ms) :
    (i, d) ∈ known s.fields ms :=
  List.mem_filterMap.2 ⟨(k, d), hm, (known?_eq_some hs.unambiguous).2 ⟨rfl, f, hi, hk⟩⟩

section

variable {ms : List (Quoted × Draft)} {items : List Draft}
  (hitems : List.Forall₂ (s.Gives ms) s.fields items)
include hitems

/-- Each field has what it gives at its position in the list. -/
theorem exists_gives {i : Nat} (hi : s.fields[i]? = some f) :
    ∃ d : Draft, items[i]? = some d ∧ s.Gives ms f d := by
  obtain ⟨hlt, rfl⟩ := List.getElem?_eq_some_iff.1 hi
  have hlt' : i < items.length := hitems.length_eq ▸ hlt
  exact ⟨items[i], List.getElem?_eq_getElem hlt', hitems.get hlt hlt'⟩

/-- In the list stands what the members give. -/
theorem mem_placed_of_mem_known (hs : s.Unordered) (h : s.Reads ms r) {m : Nat × Draft}
    (hm : m ∈ known s.fields ms) : m ∈ placed 0 items := by
  obtain ⟨i, e⟩ := m
  obtain ⟨⟨k, d⟩, hke, hknown⟩ := List.mem_filterMap.1 hm
  obtain ⟨rfl, f, hf, hk⟩ := (known?_eq_some hs.unambiguous).1 hknown
  obtain ⟨d', hd', ⟨k', hkd', hk'⟩ | ⟨hnone, -⟩⟩ := exists_gives hitems hf
  · -- no field is given twice
    have hsame := List.inj_on_of_nodup_map h.nodup hm (mem_known hs hf hk' hkd') rfl
    cases hsame
    exact mem_placed.2 hd'
  · exact absurd hk (hnone _ hke)

/-- Elsewhere in the list stands the default. -/
theorem readAt_of_not_mem_known (hs : s.Unordered) {m : Nat × Draft} (hm : m ∈ placed 0 items)
    (hnew : m.1 ∉ (known s.fields ms).map Prod.fst) :
    readAt s.fields m s.blank = .ok s.blank := by
  obtain ⟨i, e⟩ := m
  have he := mem_placed.1 hm
  obtain ⟨f, hf⟩ : ∃ f, s.fields[i]? = some f := by
    obtain ⟨hi, -⟩ := List.getElem?_eq_some_iff.1 he
    exact ⟨_, List.getElem?_eq_getElem (hitems.length_eq ▸ hi)⟩
  obtain ⟨d, hd, ⟨k, hkd, hk⟩ | ⟨-, hdefault⟩⟩ := exists_gives hitems hf
  · exact absurd (List.mem_map_of_mem (mem_known hs hf hk hkd)) hnew
  · obtain rfl : d = e := Option.some.inj (hd.symm.trans he)
    rwa [readAt, hf]

/-- The list of what the members say about each field gives the same record: the defaults in it
change nothing, and the others are the members in another order. -/
theorem readItems_eq (hs : s.Unordered) (h : s.Reads ms r) :
    Schema.readItems s.fields items none s.blank = .ok r := by
  have hsplit := List.filter_append_perm_of_subset (nodup_placed 0 items) h.nodup
    fun m => mem_placed_of_mem_known hitems hs h
  rw [@readItems_eq_readAll _ _ s.fields 0 rfl items hitems.length_eq.symm]
  refine readAll_perm hs.commutes hsplit ?_ ?_
  · exact (hsplit.map Prod.fst).nodup_iff.2 (nodup_placed 0 items)
  · rw [readAll_append, Except.bind_eq_ok]
    refine ⟨s.blank, readAll_eq_self fun m hm => ?_, h.readAll_eq⟩
    rw [List.mem_filter, decide_eq_true_eq] at hm
    exact readAt_of_not_mem_known hitems hs hm.1 hm.2

end

end Reads

theorem readItems_cons_eq_ok {f : Field ρ} {fs : List (Field ρ)} {d : Draft} {ds : List Draft}
    {r r' : ρ} : readItems (f :: fs) (d :: ds) none r = .ok r' ↔
      ∃ r₁, f.read d r = .ok r₁ ∧ readItems fs ds none r₁ = .ok r' := by
  rw [readItems, Except.bind_eq_ok]

/-- The value of a list at the position of a field may be rewritten. -/
theorem readItems_preserves {f : Field ρ} {R : Draft → Draft → Prop} (hR : f.Preserves R)
    {d d' : Draft} (hd : R d d') {fs : List (Field ρ)} {before after : List Draft} {r r' : ρ}
    (hf : fs[before.length]? = some f)
    (h : readItems fs (before ++ d :: after) none r = .ok r') :
    readItems fs (before ++ d' :: after) none r = .ok r' := by
  induction before generalizing fs r with
  | nil =>
    cases fs with
    | nil => cases hf
    | cons g fs =>
      cases hf
      obtain ⟨r₁, hr₁, hrest⟩ := readItems_cons_eq_ok.1 h
      exact readItems_cons_eq_ok.2 ⟨r₁, hR d d' r r₁ hd hr₁, hrest⟩
  | cons e before ih =>
    cases fs with
    | nil => cases hf
    | cons g fs =>
      obtain ⟨r₁, hr₁, hrest⟩ := readItems_cons_eq_ok.1 h
      exact readItems_cons_eq_ok.2 ⟨r₁, hr₁, ih hf hrest⟩

/-- Records are read as they were when they are rewritten, if the values of their members are. -/
theorem preserves (hs : s.Unordered) {inner : List (String × (Draft → Draft → Prop))}
    (hinner : ∀ p ∈ inner, ∃ (i : Nat) (f : Field ρ), s.fields[i]? = some f ∧ f.name = p.1 ∧
      f.Preserves p.2) : s.codec.Preserves (s.Rewrite inner) := by
  have hvalue : ∀ {f : Field ρ} {R}, f ∈ s.fields → (f.name, R) ∈ inner → f.Preserves R := by
    intro f R hf hR
    obtain ⟨i, g, hg, hname, hpreserves⟩ := hinner _ hR
    rwa [eq_of_name_eq hs.unambiguous hf (List.mem_of_getElem? hg) hname.symm]
  intro d d' r hstep hread
  cases hstep with
  | reorder hperm => exact read_record_eq_ok.2 ((read_record_eq_ok.1 hread).perm hs hperm)
  | rename hf hk hk' => exact read_record_eq_ok.2 ((read_record_eq_ok.1 hread).rename hs hf hk hk')
  | insert htext hname hd =>
    exact read_record_eq_ok.2 ((read_record_eq_ok.1 hread).insert htext hname hd)
  | drop hf hk hrequired hd =>
    exact read_record_eq_ok.2 ((read_record_eq_ok.1 hread).drop hs hf hk hrequired hd)
  | asList hitems => exact Reads.readItems_eq hitems hs (read_record_eq_ok.1 hread)
  | member hf hk hR hd =>
    exact read_record_eq_ok.2 ((read_record_eq_ok.1 hread).member hs hf hk (hvalue hf hR) hd)
  | item hf hR hd =>
    exact readItems_preserves (hvalue (List.mem_of_getElem? hf) hR) hd hf hread

end Schema

/-! ## Documents -/

/-- A document is rewritten to another one. Blanks may stand anywhere between its tokens. -/
def Rewritten (R : Draft → Draft → Prop) (text text' : String) : Prop :=
  ∃ d d', draft text.toList = (d, false) ∧ draft text'.toList = (d', false) ∧
    Relation.ReflTransGen R d d'

/-- A document is read as it was when it is rewritten. -/
theorem Codec.Preserves.parse {α : Type} {c : Codec α} {R : Draft → Draft → Prop}
    (h : c.Preserves R) {text text' : String} (hrewritten : Rewritten R text text') {a : α}
    (hparse : c.parse text = .ok a) : c.parse text' = .ok a := by
  obtain ⟨d, d', hd, hd', hsteps⟩ := hrewritten
  rw [parse_of_draft hd] at hparse
  rw [parse_of_draft hd', h.reflTransGen d d' a hsteps hparse]

/-- The draft of a compact text is that of its value. -/
theorem draft_compact (v : Value) : draft v.compact.toList = (v.draft, false) := by
  have hdraft := draft_chars isBlank_compactLayout v (List.forall_mem_nil _)
  rw [List.append_nil] at hdraft
  rw [Value.compact, String.toList_ofList, hdraft]

end TunnelMesh.Json
