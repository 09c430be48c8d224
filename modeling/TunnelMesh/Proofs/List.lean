import Mathlib

/-!
# Lists by position

Entries that are mapped with their positions (`List.map_mapIdx`, `List.mapIdx_map`), the order of
those that are picked out (`List.map_filterMap_sublist_map`), entries that are told apart by keys
(`List.filter_append_perm_of_subset`), the entry behind those that are dropped
(`List.of_drop_eq_cons`), the positions of entries in several lists put together
(`List.getElem?_flatten_of`), the change of one entry (`List.map_modify`), and lists that are cut at
an entry (`List.append_cons_inj_of_first`).
-/

namespace List

variable {α β γ : Type}

/-- Entries that are mapped with their positions and then once more are mapped once. -/
theorem map_mapIdx (f : Nat → α → β) (g : β → γ) (l : List α) :
    (l.mapIdx f).map g = l.mapIdx fun i a => g (f i a) := by
  refine List.ext_getElem? fun i => ?_
  rw [getElem?_map, getElem?_mapIdx, getElem?_mapIdx, Option.map_map]
  rfl

/-- Entries that are mapped and then once more with their positions are mapped once. -/
theorem mapIdx_map (f : α → β) (g : Nat → β → γ) (l : List α) :
    (l.map f).mapIdx g = l.mapIdx fun i a => g i (f a) := by
  refine List.ext_getElem? fun i => ?_
  rw [getElem?_mapIdx, getElem?_mapIdx, getElem?_map, Option.map_map]
  rfl

/-- Where the position does not matter, all entries are mapped alike. -/
theorem mapIdx_eq_map (f : α → β) (l : List α) : (l.mapIdx fun _ a => f a) = l.map f := by
  refine List.ext_getElem? fun i => ?_
  rw [getElem?_mapIdx, getElem?_map]

/-- Picking entries out keeps the order of what they show. -/
theorem map_filterMap_sublist_map {f : α → Option β} {g : α → γ} {g' : β → γ}
    (h : ∀ a b, f a = some b → g' b = g a) (l : List α) :
    ((l.filterMap f).map g').Sublist (l.map g) := by
  induction l with
  | nil => exact .slnil
  | cons a l ih =>
    cases hf : f a with
    | none =>
      rw [filterMap_cons_none hf, map_cons]
      exact ih.cons _
    | some b =>
      rw [filterMap_cons_some hf, map_cons, map_cons, h a b hf]
      exact ih.cons_cons _

/-- Entries with keys that differ are some of them and those with other keys. -/
theorem filter_append_perm_of_subset [DecidableEq α] {l l' : List (α × β)}
    (hl : (l.map Prod.fst).Nodup) (hl' : (l'.map Prod.fst).Nodup) (hsub : ∀ p ∈ l', p ∈ l) :
    (l.filter (fun p => p.1 ∉ l'.map Prod.fst) ++ l').Perm l := by
  have hapart : (l.filter fun p => p.1 ∉ l'.map Prod.fst).Disjoint l' := by
    intro p hp hq
    rw [mem_filter, decide_eq_true_eq] at hp
    exact hp.2 (mem_map_of_mem hq)
  have hnodup := (hl.of_map.filter _).append hl'.of_map hapart
  refine (perm_ext_iff_of_nodup hnodup hl.of_map).2 fun p => ?_
  rw [mem_append, mem_filter, decide_eq_true_eq]
  constructor
  · rintro (hp | hp)
    · exact hp.1
    · exact hsub p hp
  · intro hp
    by_cases hkey : p.1 ∈ l'.map Prod.fst
    · obtain ⟨q, hq, hfst⟩ := mem_map.1 hkey
      obtain rfl : q = p := inj_on_of_nodup_map hl (hsub q hq) hp hfst
      exact .inr hq
    · exact .inl ⟨hp, hkey⟩

/-- What stands behind the first entries begins with the entry at their number. -/
theorem of_drop_eq_cons {l as : List α} {k : Nat} {a : α} (h : l.drop k = a :: as) :
    l[k]? = some a ∧ l.drop (k + 1) = as := by
  rw [← head?_drop, ← tail_drop, h]
  exact ⟨rfl, rfl⟩

/-- The entry at a place of one of several lists, in all of them together. -/
theorem getElem?_flatten_of {ls : List (List α)} {l : List α} {i j : Nat} {a : α}
    (hl : ls[i]? = some l) (ha : l[j]? = some a) :
    ls.flatten[((ls.take i).map length).sum + j]? = some a := by
  obtain ⟨hi, rfl⟩ := getElem?_eq_some_iff.1 hl
  obtain ⟨hj, -⟩ := getElem?_eq_some_iff.1 ha
  rw [← length_flatten]
  nth_rewrite 1 [← take_append_drop i ls]
  rw [flatten_append, getElem?_append_right (Nat.le_add_right ..), Nat.add_sub_cancel_left,
    drop_eq_getElem_cons hi, flatten_cons, getElem?_append_left hj, ha]

/-- The entry behind the first ones is changed. -/
theorem modify_length_append_cons (l₁ : List α) (a : α) (l₂ : List α) (f : α → α) :
    (l₁ ++ a :: l₂).modify l₁.length f = l₁ ++ f a :: l₂ :=
  modifyTailIdx_add (modifyHead f) 0 l₁ (a :: l₂)

/-- A change of one entry is seen as a change of what is made of it. -/
theorem map_modify {f : α → α} {g : α → β} {f' : β → β} {l : List α} {i : Nat}
    (h : ∀ a, l[i]? = some a → g (f a) = f' (g a)) :
    (l.modify i f).map g = (l.map g).modify i f' := by
  refine ext_getElem? fun k => ?_
  rw [getElem?_map, getElem?_modify, getElem?_modify, getElem?_map]
  by_cases hik : i = k
  · subst hik
    cases hi : l[i]? with
    | none => rfl
    | some a => simp [h a hi]
  · cases l[k]? <;> simp [hik]

/-- A change that leaves the entry at its place as it is changes nothing. -/
theorem modify_eq_of_getElem? {f : α → α} {l : List α} {i : Nat}
    (h : ∀ a, l[i]? = some a → f a = a) : l.modify i f = l := by
  have hid : (l.modify i f).map id = (l.map id).modify i id := map_modify h
  rwa [map_id, map_id, modify_id] at hid

/-- A change of one entry is seen as a change of what it is paired to. -/
theorem zipWith_modify {f : α → α} {f' : γ → γ} {g : α → β → γ} (h : ∀ a b, g (f a) b = f' (g a b))
    (l : List α) (l' : List β) (i : Nat) :
    zipWith g (l.modify i f) l' = (zipWith g l l').modify i f' := by
  refine ext_getElem? fun k => ?_
  rw [getElem?_zipWith, getElem?_modify, getElem?_modify, getElem?_zipWith]
  cases l[k]? with
  | none => rfl
  | some a =>
    cases l'[k]? with
    | none => rfl
    | some b => by_cases hik : i = k <;> simp [hik, h]

/-- A look-up finds the first pair, or goes on behind it. -/
theorem lookup_cons_eq_ite [DecidableEq α] (p : α × β) (l : List (α × β)) (a : α) :
    (p :: l).lookup a = if a = p.1 then some p.2 else l.lookup a := by
  rw [lookup_cons]
  by_cases h : a = p.1
  · rw [if_pos h, beq_iff_eq.2 h]
  · rw [if_neg h, beq_false_of_ne h]

/-- A list is cut in one way at the first place of an entry. -/
theorem append_cons_inj_of_first {a : α} {xs xs' ys ys' : List α} (h : a ∉ xs) (h' : a ∉ xs') :
    xs ++ a :: ys = xs' ++ a :: ys' ↔ xs = xs' ∧ ys = ys' := by
  refine ⟨fun heq => ?_, fun ⟨hfront, hback⟩ => by rw [hfront, hback]⟩
  induction xs generalizing xs' with
  | nil =>
    cases xs' with
    | nil => exact ⟨rfl, (cons.inj heq).2⟩
    | cons x xs' => exact absurd ((cons.inj heq).1 ▸ mem_cons_self) h'
  | cons x xs ih =>
    cases xs' with
    | nil => exact absurd ((cons.inj heq).1 ▸ mem_cons_self) h
    | cons x' xs' =>
      obtain ⟨rfl, hrest⟩ := cons.inj heq
      obtain ⟨rfl, hback⟩ := ih (not_mem_of_not_mem_cons h) (not_mem_of_not_mem_cons h') hrest
      exact ⟨rfl, hback⟩

/-- A list is cut in one way at the last place of an entry. -/
theorem append_cons_inj_of_last {a : α} {xs xs' ys ys' : List α} (h : a ∉ ys) (h' : a ∉ ys') :
    xs ++ a :: ys = xs' ++ a :: ys' ↔ xs = xs' ∧ ys = ys' := by
  have hreverse : ∀ xs ys : List α, (xs ++ a :: ys).reverse = ys.reverse ++ a :: xs.reverse :=
    fun xs ys => by simp
  rw [← reverse_inj, hreverse, hreverse, append_cons_inj_of_first (by simpa) (by simpa),
    reverse_inj, reverse_inj, and_comm]

end List
