import Mathlib
import TunnelMesh.Proofs.Json.Codec

/-!
# Members of a record

A record object is read one member after the other, but what comes out is said by the members that
the record knows, each of them by its position among the fields (`Schema.known`): they are read in
any order (`Schema.readAll_perm`), as long as no two fields set the same part of the record
(`Schema.unordered_of_sets`). A list gives the same as the members at its positions
(`Schema.readItems_eq_readAll`). So `Schema.read_record_eq_ok` says when a record object is read,
and as what, without a word about the order of its members.
-/

namespace TunnelMesh.Json

variable {ρ : Type}

/-! ## Fields -/

/-- How a part of a record is set. -/
structure Setter (ρ : Type) where
  /-- What the part may be. -/
  Value : Type
  set : Value → ρ → ρ

/-- Of two parts of a record, it does not matter which is set first. -/
def Setter.Apart (p q : Setter ρ) : Prop :=
  ∀ a b r, q.set b (p.set a r) = p.set a (q.set b r)

namespace Field

variable {f g : Field ρ}

/-- A key is one of the names of a field. -/
def IsNamed (f : Field ρ) (k : Quoted) : Prop :=
  ∃ name, k.text = .ok name ∧ f.answersTo name = true

instance (f : Field ρ) (k : Quoted) : Decidable (f.IsNamed k) :=
  match htext : k.text with
  | .ok name => decidable_of_iff (f.answersTo name = true) (by simp [IsNamed, htext])
  | .error _ => .isFalse (by simp [IsNamed, htext])

/-- Two fields may be read in either order. -/
def Commutes (f g : Field ρ) : Prop :=
  ∀ d e r r', (f.read d r >>= g.read e) = .ok r' ↔ (g.read e r >>= f.read d) = .ok r'

theorem Commutes.symm (h : f.Commutes g) : g.Commutes f :=
  fun d e r r' => (h e d r r').symm

/-- The field sets a part of the record to what it reads. -/
inductive Sets : Field ρ → Setter ρ → Prop
  | always {α : Type} {name : String} {aliases : List String} {required : Bool} {c : Codec α}
      {get : ρ → α} {set : α → ρ → ρ} : Sets (.always name aliases required c get set) ⟨α, set⟩
  | optional {α : Type} {name : String} {c : Codec α} {get : ρ → Option α}
      {set : Option α → ρ → ρ} : Sets (.optional name c get set) ⟨Option α, set⟩
  | entries {α : Type} {name : String} {c : Codec α} {get : ρ → List α}
      {set : List α → ρ → ρ} : Sets (.entries name c get set) ⟨List α, set⟩

variable {p q : Setter ρ}

/-- What a field reads does not depend on the record that is built up. -/
theorem Sets.exists_read (h : f.Sets p) :
    ∃ read : Draft → Except Defect p.Value, ∀ d r, f.read d r = (read d).map (p.set · r) := by
  cases h with
  | always => exact ⟨_, fun _ _ => rfl⟩
  | optional => exact ⟨_, fun _ _ => rfl⟩
  | entries => exact ⟨_, fun _ _ => rfl⟩

/-- Fields that set parts that are apart may be read in either order. -/
theorem Sets.commutes (hf : f.Sets p) (hg : g.Sets q) (hapart : p.Apart q) : f.Commutes g := by
  obtain ⟨read, hread⟩ := hf.exists_read
  obtain ⟨read', hread'⟩ := hg.exists_read
  intro d e r r'
  simp only [Except.bind_eq_ok, hread, hread']
  cases read d with
  | error => cases read' e <;> simp [Except.map]
  | ok a =>
    cases read' e with
    | error => simp [Except.map]
    | ok b => simp [Except.map, hapart a b]

end Field

namespace Schema

variable {fields : List (Field ρ)} {s : Schema ρ}

/-! ## Names -/

/-- No name is that of two fields. -/
def Unambiguous (fields : List (Field ρ)) : Prop :=
  (fields.flatMap fun f => f.name :: f.aliases).Nodup

instance (fields : List (Field ρ)) : Decidable (Unambiguous fields) :=
  inferInstanceAs (Decidable (fields.flatMap fun f => f.name :: f.aliases).Nodup)

/-- A field answers to its name and its other names. -/
theorem answersTo_iff {f : Field ρ} {name : String} :
    f.answersTo name = true ↔ name ∈ f.name :: f.aliases := by
  simp [Field.answersTo]

/-- The field of a name is the only one that answers to it. -/
theorem indexOf?_eq_some (h : Unambiguous fields) {name : String} {i : Nat} :
    indexOf? fields name = some i ↔ ∃ f, fields[i]? = some f ∧ f.answersTo name = true := by
  rw [indexOf?, List.findIdx?_eq_some_iff_getElem]
  constructor
  · rintro ⟨hi, hanswers, -⟩
    exact ⟨fields[i], List.getElem?_eq_getElem hi, hanswers⟩
  · rintro ⟨f, hf, hanswers⟩
    obtain ⟨hi, rfl⟩ := List.getElem?_eq_some_iff.1 hf
    refine ⟨hi, hanswers, fun j hj hanswers' => ?_⟩
    have hapart := List.pairwise_iff_getElem.1 (List.nodup_flatMap.1 h).2 j i (hj.trans hi) hi hj
    exact hapart (answersTo_iff.1 hanswers') (answersTo_iff.1 hanswers)

/-- Fields are told apart by their names. -/
theorem eq_of_name_eq (h : Unambiguous fields) {f g : Field ρ} (hf : f ∈ fields) (hg : g ∈ fields)
    (hname : f.name = g.name) : f = g := by
  obtain ⟨i, hi⟩ := List.mem_iff_getElem?.1 hf
  obtain ⟨j, hj⟩ := List.mem_iff_getElem?.1 hg
  have hfi := (indexOf?_eq_some h).2 ⟨f, hi, answersTo_iff.2 List.mem_cons_self⟩
  have hgj := (indexOf?_eq_some h).2 ⟨g, hj, answersTo_iff.2 List.mem_cons_self⟩
  rw [hname, hgj, Option.some.injEq] at hfi
  subst hfi
  exact Option.some.inj (hi.symm.trans hj)

/-- A name that no field answers to is unknown. -/
theorem indexOf?_eq_none {name : String} :
    indexOf? fields name = none ↔ ∀ f ∈ fields, f.answersTo name = false := by
  rw [indexOf?, List.findIdx?_eq_none_iff]

/-! ## Known members -/

/-- The position of the field of a member, with its value. -/
def known? (fields : List (Field ρ)) (m : Quoted × Draft) : Option (Nat × Draft) :=
  match m.1.text with
  | .ok name => (indexOf? fields name).map (·, m.2)
  | .error _ => none

/-- The members that a record knows. -/
def known (fields : List (Field ρ)) (ms : List (Quoted × Draft)) : List (Nat × Draft) :=
  ms.filterMap (known? fields)

/-- A member that the record does not know is passed over. -/
theorem known_cons_none {m : Quoted × Draft} (h : known? fields m = none)
    (ms : List (Quoted × Draft)) : known fields (m :: ms) = known fields ms :=
  List.filterMap_cons_none h

/-- A member that the record knows stands for the field of its name. -/
theorem known_cons_some {m : Quoted × Draft} {n : Nat × Draft} (h : known? fields m = some n)
    (ms : List (Quoted × Draft)) : known fields (m :: ms) = n :: known fields ms :=
  List.filterMap_cons_some h

/-- The key of a member is a text, and its value can be skipped where the key is unknown. -/
def Readable (fields : List (Field ρ)) (m : Quoted × Draft) : Prop :=
  ∃ name, m.1.text = .ok name ∧ (indexOf? fields name = none → m.2.skip = none)

/-- A member is known by its name. -/
theorem known?_of_text {m : Quoted × Draft} {name : String} (h : m.1.text = .ok name) :
    known? fields m = (indexOf? fields name).map (·, m.2) := by
  rw [known?, h]

/-- Where no name is that of two fields, a member stands for the field that has its name. -/
theorem known?_eq_some (h : Unambiguous fields) {m : Quoted × Draft} {i : Nat} {d : Draft} :
    known? fields m = some (i, d) ↔ d = m.2 ∧ ∃ f, fields[i]? = some f ∧ f.IsNamed m.1 := by
  cases htext : m.1.text with
  | error e => simp [known?, Field.IsNamed, htext]
  | ok name =>
    rw [known?_of_text htext, Option.map_eq_some_iff]
    simp only [Field.IsNamed, htext, Except.ok.injEq, indexOf?_eq_some h]
    constructor
    · rintro ⟨i, ⟨f, hf, hanswers⟩, ⟨⟩⟩
      exact ⟨rfl, f, hf, name, rfl, hanswers⟩
    · rintro ⟨rfl, f, hf, name, rfl, hanswers⟩
      exact ⟨i, ⟨f, hf, hanswers⟩, rfl⟩

/-- The member that a field takes from a draft. -/
def readAt (fields : List (Field ρ)) (m : Nat × Draft) (r : ρ) : Except Defect ρ :=
  match fields[m.1]? with
  | none => .error .mismatched
  | some f => f.read m.2 r

/-- The record with several members, one after the other. -/
def readAll (fields : List (Field ρ)) (ms : List (Nat × Draft)) (r : ρ) : Except Defect ρ :=
  ms.foldlM (fun r m => readAt fields m r) r

theorem readAll_cons (m : Nat × Draft) (ms : List (Nat × Draft)) (r : ρ) :
    readAll fields (m :: ms) r = (readAt fields m r >>= readAll fields ms) :=
  List.foldlM_cons

/-- Members behind others are read into the record that those give. -/
theorem readAll_append (ms ms' : List (Nat × Draft)) (r : ρ) :
    readAll fields (ms ++ ms') r = (readAll fields ms r >>= readAll fields ms') :=
  List.foldlM_append

section

variable {k : Quoted} {d : Draft} {ms : List (Quoted × Draft)} {name : String}
  {seen seen' : List Nat} {r r' : ρ}

/-- A member that the record does not know is skipped. -/
theorem readMembers_cons_unknown (htext : k.text = .ok name)
    (hindex : indexOf? fields name = none) :
    readMembers fields ((k, d) :: ms) seen r = .ok (seen', r') ↔
      d.skip = none ∧ readMembers fields ms seen r = .ok (seen', r') := by
  simp only [readMembers, Except.bind_eq_ok, htext, Except.ok.injEq, exists_eq_left', hindex]
  cases d.skip <;> simp

/-- A member that the record knows is read if it has not been seen. -/
theorem readMembers_cons_known (htext : k.text = .ok name) {i : Nat}
    (hindex : indexOf? fields name = some i) :
    readMembers fields ((k, d) :: ms) seen r = .ok (seen', r') ↔
      i ∉ seen ∧ ∃ r₁, readAt fields (i, d) r = .ok r₁ ∧
        readMembers fields ms (i :: seen) r₁ = .ok (seen', r') := by
  simp only [readMembers, Except.bind_eq_ok, htext, Except.ok.injEq, exists_eq_left', hindex,
    readAt, List.contains_iff_mem]
  split_ifs with hseen
  · simp [hseen]
  · cases fields[i]? <;> simp [hseen, Except.bind_eq_ok]

/-- Members are read if their keys are texts, no known one is given twice, and each field takes its
value. -/
theorem readMembers_eq_ok : readMembers fields ms seen r = .ok (seen', r') ↔
    (∀ m ∈ ms, Readable fields m) ∧ ((known fields ms).map Prod.fst).Nodup ∧
      (∀ m ∈ known fields ms, m.1 ∉ seen) ∧ readAll fields (known fields ms) r = .ok r' ∧
        seen' = ((known fields ms).map Prod.fst).reverse ++ seen := by
  induction ms generalizing seen r with
  | nil => simp [readMembers, known, readAll, pure, Except.pure, and_comm, eq_comm]
  | cons m ms ih =>
    obtain ⟨k, d⟩ := m
    rw [List.forall_mem_cons]
    cases htext : k.text with
    | error e => simp [readMembers, Readable, htext, bind, Except.bind]
    | ok name =>
      have hreadable : Readable fields (k, d) ↔
          (indexOf? fields name = none → d.skip = none) := by
        simp [Readable, htext]
      have hknown := @known?_of_text _ fields (k, d) _ htext
      rw [hreadable]
      cases hindex : indexOf? fields name with
      | none =>
        rw [hindex] at hknown
        rw [readMembers_cons_unknown htext hindex, ih, known_cons_none hknown]
        simp [and_assoc]
      | some i =>
        rw [hindex] at hknown
        rw [readMembers_cons_known htext hindex, known_cons_some hknown, readAll_cons,
          Except.bind_eq_ok, List.map_cons, List.nodup_cons, List.forall_mem_cons,
          List.reverse_cons, List.append_assoc, List.singleton_append]
        simp only [ih, List.mem_cons, not_or, List.mem_map, reduceCtorEq, false_implies, true_and]
        constructor
        · rintro ⟨hnew, r₁, hread, hms, hnodup, hseen, hrest, hall⟩
          refine ⟨hms, ⟨?_, hnodup⟩, ⟨hnew, fun m hm => (hseen m hm).2⟩, ⟨r₁, hread, hrest⟩,
            hall⟩
          rintro ⟨m, hm, hi⟩
          exact (hseen m hm).1 hi
        · rintro ⟨hms, ⟨hfresh, hnodup⟩, ⟨hnew, hseen⟩, ⟨r₁, hread, hrest⟩, hall⟩
          exact ⟨hnew, r₁, hread, hms, hnodup,
            fun m hm => ⟨fun hi => hfresh ⟨m, hm, hi⟩, hseen m hm⟩, hrest, hall⟩

end

/-! ## Records -/

/-- The members of a record object give a record. -/
structure Reads (s : Schema ρ) (ms : List (Quoted × Draft)) (r : ρ) : Prop where
  readable : ∀ m ∈ ms, Readable s.fields m
  /-- No field is given twice. -/
  nodup : ((known s.fields ms).map Prod.fst).Nodup
  complete : ∀ i f, s.fields[i]? = some f → f.required = true →
    i ∈ (known s.fields ms).map Prod.fst
  readAll_eq : readAll s.fields (known s.fields ms) s.blank = .ok r

/-- When a record object is read, and as what. -/
theorem read_record_eq_ok {ms : List (Quoted × Draft)} {r : ρ} :
    s.codec.read (.record ms .closed) = .ok r ↔ s.Reads ms r := by
  simp only [codec, Except.bind_eq_ok, Prod.exists, readMembers_eq_ok]
  constructor
  · rintro ⟨_, r', ⟨hreadable, hnodup, -, hread, rfl⟩, hclosed⟩
    split_ifs at hclosed with hcomplete
    · cases hclosed
      rw [complete_eq_true] at hcomplete
      exact ⟨hreadable, hnodup, by simpa using hcomplete, hread⟩
  · rintro ⟨hreadable, hnodup, hcomplete, hread⟩
    refine ⟨_, r, ⟨hreadable, hnodup, fun m _ => List.not_mem_nil, hread, rfl⟩, ?_⟩
    rw [if_pos (complete_eq_true.2 (by simpa using hcomplete))]

/-! ## The order of members -/

section

variable (hcommutes : fields.Pairwise Field.Commutes)
include hcommutes

/-- Fields at different positions may be read in either order. -/
theorem commutes_of_ne {i j : Nat} (hne : i ≠ j) {f g : Field ρ} (hf : fields[i]? = some f)
    (hg : fields[j]? = some g) : f.Commutes g := by
  obtain ⟨hi, rfl⟩ := List.getElem?_eq_some_iff.1 hf
  obtain ⟨hj, rfl⟩ := List.getElem?_eq_some_iff.1 hg
  have hpairs := List.pairwise_iff_getElem.1 hcommutes
  rcases Nat.lt_or_gt_of_ne hne with hlt | hlt
  · exact hpairs i j hi hj hlt
  · exact (hpairs j i hj hi hlt).symm

/-- Members of different fields are read in either order. -/
theorem readAt_comm {m m' : Nat × Draft} (hne : m.1 ≠ m'.1) {r r₁ r₂ : ρ}
    (hm : readAt fields m r = .ok r₁) (hm' : readAt fields m' r₁ = .ok r₂) :
    ∃ r₁', readAt fields m' r = .ok r₁' ∧ readAt fields m r₁' = .ok r₂ := by
  cases hf : fields[m.1]? with
  | none => simp [readAt, hf] at hm
  | some f =>
    cases hg : fields[m'.1]? with
    | none => simp [readAt, hg] at hm'
    | some g =>
      simp only [readAt, hf, hg] at hm hm' ⊢
      exact Except.bind_eq_ok.1 <| (commutes_of_ne hcommutes hne hf hg _ _ _ _).1 <|
        Except.bind_eq_ok.2 ⟨r₁, hm, hm'⟩

/-- Members of different fields are read in any order. -/
theorem readAll_perm {ms ms' : List (Nat × Draft)} (hperm : ms.Perm ms')
    (hnodup : (ms.map Prod.fst).Nodup) {r r' : ρ} (h : readAll fields ms r = .ok r') :
    readAll fields ms' r = .ok r' := by
  induction hperm generalizing r with
  | nil => exact h
  | cons m _ ih =>
    rw [readAll_cons, Except.bind_eq_ok] at h ⊢
    obtain ⟨r₁, hm, hms⟩ := h
    exact ⟨r₁, hm, ih (List.nodup_cons.1 hnodup).2 hms⟩
  | swap m m' ms =>
    have hne : m'.1 ≠ m.1 := by
      intro heq
      simp [heq] at hnodup
    simp only [readAll_cons, Except.bind_eq_ok] at h ⊢
    obtain ⟨r₁, hm', r₂, hm, hms⟩ := h
    obtain ⟨r₁', hm, hm'⟩ := readAt_comm hcommutes hne hm' hm
    exact ⟨r₁', hm, r₂, hm', hms⟩
  | trans hfirst _ ih ih' =>
    exact ih' ((hfirst.map Prod.fst).nodup_iff.1 hnodup) (ih hnodup h)

end

/-- Members that change nothing may be read at any time. -/
theorem readAll_eq_self {ms : List (Nat × Draft)} {r : ρ}
    (h : ∀ m ∈ ms, readAt fields m r = .ok r) : readAll fields ms r = .ok r := by
  induction ms with
  | nil => rfl
  | cons m ms ih =>
    rw [List.forall_mem_cons] at h
    rw [readAll_cons, Except.bind_eq_ok]
    exact ⟨r, h.1, ih h.2⟩

/-- A schema whose records do not depend on the order of their members. -/
structure Unordered (s : Schema ρ) : Prop where
  unambiguous : Unambiguous s.fields
  commutes : s.fields.Pairwise Field.Commutes

/-- Nothing depends on the order of members where each field has names of its own and sets a part of
its own. -/
theorem unordered_of_sets {parts : List (Setter ρ)} (hnames : Unambiguous s.fields)
    (hsets : List.Forall₂ Field.Sets s.fields parts) (hapart : parts.Pairwise Setter.Apart) :
    s.Unordered where
  unambiguous := hnames
  commutes := List.pairwise_iff_getElem.2 fun i j hi hj hij => by
    have hi' : i < parts.length := hsets.length_eq ▸ hi
    have hj' : j < parts.length := hsets.length_eq ▸ hj
    exact (hsets.get hi hi').commutes (hsets.get hj hj')
      (List.pairwise_iff_getElem.1 hapart i j hi' hj' hij)

namespace Reads

variable {ms ms' : List (Quoted × Draft)} {r : ρ}

/-- The members of a record object may stand in any order. -/
theorem perm (hs : s.Unordered) (h : s.Reads ms r) (hperm : ms.Perm ms') : s.Reads ms' r := by
  have hknown : (known s.fields ms).Perm (known s.fields ms') := hperm.filterMap _
  have hindices := hknown.map Prod.fst
  exact {
    readable := fun m hm => h.readable m (hperm.mem_iff.2 hm)
    nodup := hindices.nodup_iff.1 h.nodup
    complete := fun i f hf hrequired => hindices.mem_iff.1 (h.complete i f hf hrequired)
    readAll_eq := readAll_perm hs.commutes hknown h.nodup h.readAll_eq }

/-- What the record does not know does not matter, if it can be skipped. -/
theorem of_known_eq (h : s.Reads ms r) (hknown : known s.fields ms' = known s.fields ms)
    (hreadable : ∀ m ∈ ms', Readable s.fields m) : s.Reads ms' r where
  readable := hreadable
  nodup := hknown ▸ h.nodup
  complete := hknown ▸ h.complete
  readAll_eq := hknown ▸ h.readAll_eq

end Reads

/-! ## Lists -/

/-- The values of a list as members at their positions, the first of them at a given one. -/
def placed (k : Nat) (items : List Draft) : List (Nat × Draft) :=
  (items.zipIdx k).map Prod.swap

/-- The values of a list stand at their positions. -/
theorem mem_placed {items : List Draft} {m : Nat × Draft} :
    m ∈ placed 0 items ↔ items[m.1]? = some m.2 := by
  obtain ⟨i, d⟩ := m
  rw [placed, List.mem_map_swap, List.mem_zipIdx_iff_getElem?]

/-- No two values of a list stand at one position. -/
theorem nodup_placed (k : Nat) (items : List Draft) : ((placed k items).map Prod.fst).Nodup := by
  have hindices : (placed k items).map Prod.fst = List.range' k items.length := by
    rw [placed, List.map_map, ← List.zipIdx_map_snd k items]
    rfl
  rw [hindices]
  exact List.nodup_range'

/-- A list with a value for each field gives what the members at its positions give. -/
theorem readItems_eq_readAll {fs : List (Field ρ)} {k : Nat} (hfs : fields.drop k = fs)
    {items : List Draft} (hlength : items.length = fs.length) (r : ρ) :
    readItems fs items none r = readAll fields (placed k items) r := by
  induction items generalizing fs k r with
  | nil =>
    obtain rfl : fs = [] := List.length_eq_zero_iff.1 hlength.symm
    rfl
  | cons d ds ih =>
    cases fs with
    | nil => cases hlength
    | cons f fs =>
      obtain ⟨hf, hrest⟩ := List.of_drop_eq_cons hfs
      have hplaced : placed k (d :: ds) = (k, d) :: placed (k + 1) ds := rfl
      have hread : readAt fields (k, d) = f.read d := by
        funext r
        rw [readAt, hf]
      rw [readItems, hplaced, readAll_cons, hread]
      exact congrArg _ (funext fun r => ih hrest (Nat.succ.inj hlength) r)

end Schema

end TunnelMesh.Json
