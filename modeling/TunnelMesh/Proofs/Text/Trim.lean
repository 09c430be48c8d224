import Mathlib
import TunnelMesh.Text.Blank

/-!
# Texts without blanks at their ends

Trimming is idempotent (`trim_trim`), it leaves a text just when blanks stand around it
(`trim_eq_iff_padded`) and nothing just where the text is blank (`trim_eq_empty`), and whether an
optional text is set does not depend on it (`nonBlank_map_trim`).
-/

namespace TunnelMesh.Text

/-! ## Characters -/

/-- No digit is a blank. -/
theorem isBlank_of_isDigit {c : Char} (h : c.isDigit = true) : isBlank c = false := by
  simp only [Char.isDigit, Bool.and_eq_true, decide_eq_true_eq] at h
  have hlow : 48 ≤ c.toNat := h.1
  have hhigh : c.toNat ≤ 57 := h.2
  simp [isBlank]
  omega

/-- Trimming drops blanks from the front and from the back. -/
theorem trimChars_eq_rdropWhile (cs : List Char) :
    trimChars cs = (cs.dropWhile isBlank).rdropWhile isBlank := rfl

/-- No blank stands at the beginning of what trimming leaves. -/
theorem dropWhile_trimChars (cs : List Char) :
    (trimChars cs).dropWhile isBlank = trimChars cs := by
  rw [List.dropWhile_eq_self_iff]
  intro hpos
  obtain ⟨rest, hrest⟩ := List.rdropWhile_prefix isBlank (cs.dropWhile isBlank)
  rw [← trimChars_eq_rdropWhile] at hrest
  have hhead := List.dropWhile_eq_self_iff.1 (List.dropWhile_idempotent isBlank cs)
  have hlt : 0 < (cs.dropWhile isBlank).length := by rw [← hrest, List.length_append]; omega
  have hsame : (cs.dropWhile isBlank)[0] = (trimChars cs)[0] := by
    simp only [← hrest, List.getElem_append_left hpos]
  exact hsame ▸ hhead hlt

theorem trimChars_trimChars (cs : List Char) : trimChars (trimChars cs) = trimChars cs := by
  rw [trimChars_eq_rdropWhile (trimChars cs), dropWhile_trimChars, trimChars_eq_rdropWhile,
    List.rdropWhile_idempotent]

/-- Trimming leaves nothing of blanks, and something of everything else. -/
theorem trimChars_eq_nil {cs : List Char} : trimChars cs = [] ↔ ∀ c ∈ cs, isBlank c := by
  rw [trimChars_eq_rdropWhile, List.rdropWhile_eq_nil_iff]
  refine ⟨fun h c hc => ?_, fun h c hc => h c ((List.dropWhile_sublist _).mem hc)⟩
  rw [← List.takeWhile_append_dropWhile (p := isBlank) (l := cs), List.mem_append] at hc
  rcases hc with hc | hc
  · exact List.mem_takeWhile_imp hc
  · exact h c hc

/-- A text is left as it is just when no blank stands at its two ends. -/
theorem trimChars_eq_self_iff {cs : List Char} : trimChars cs = cs ↔
    (∀ c ∈ cs.head?, isBlank c = false) ∧ ∀ c ∈ cs.getLast?, isBlank c = false := by
  have hhead : cs.dropWhile isBlank = cs ↔ ∀ c ∈ cs.head?, isBlank c = false := by
    rw [List.dropWhile_eq_self_iff]
    cases cs <;> simp
  have hlast : cs.rdropWhile isBlank = cs ↔ ∀ c ∈ cs.getLast?, isBlank c = false := by
    rw [List.rdropWhile_eq_self_iff]
    rcases List.eq_nil_or_concat cs with rfl | ⟨cs, c, rfl⟩ <;> simp
  rw [← hhead, ← hlast]
  constructor
  · intro h
    have hdrop : cs.dropWhile isBlank = cs := h ▸ dropWhile_trimChars cs
    rw [trimChars_eq_rdropWhile, hdrop] at h
    exact ⟨hdrop, h⟩
  · rintro ⟨hdrop, hrdrop⟩
    rw [trimChars_eq_rdropWhile, hdrop, hrdrop]

/-- A text that has no blanks is left as it is. -/
theorem trimChars_of_forall {cs : List Char} (h : ∀ c ∈ cs, isBlank c = false) :
    trimChars cs = cs :=
  trimChars_eq_self_iff.2 ⟨fun c hc => h c (List.mem_of_mem_head? hc),
    fun c hc => h c (List.mem_of_mem_getLast? hc)⟩

/-- Blanks at the two ends do not count. -/
theorem trimChars_append_append {front back : List Char} (hfront : ∀ c ∈ front, isBlank c)
    (hback : ∀ c ∈ back, isBlank c) (cs : List Char) :
    trimChars (front ++ cs ++ back) = trimChars cs := by
  have hend : ∀ ds : List Char, (ds ++ back).rdropWhile isBlank = ds.rdropWhile isBlank := by
    intro ds
    rw [List.rdropWhile, List.reverse_append, List.dropWhile_append_of_pos, List.rdropWhile]
    exact fun c hc => hback c (List.mem_reverse.1 hc)
  rw [trimChars_eq_rdropWhile, trimChars_eq_rdropWhile, List.append_assoc,
    List.dropWhile_append_of_pos hfront, List.dropWhile_append]
  split
  · next hempty =>
    rw [List.isEmpty_iff] at hempty
    have hdrop : back.dropWhile isBlank = [] := List.dropWhile_eq_nil_iff.2 hback
    rw [hempty, hdrop]
  · exact hend _

/-- A text is what trimming leaves of it, with blanks at the two ends. -/
theorem exists_eq_append_trimChars (cs : List Char) : ∃ front back,
    (∀ c ∈ front, isBlank c) ∧ (∀ c ∈ back, isBlank c) ∧ cs = front ++ trimChars cs ++ back := by
  refine ⟨cs.takeWhile isBlank, (cs.dropWhile isBlank).rtakeWhile isBlank, ?_, ?_, ?_⟩
  · exact fun c hc => List.mem_takeWhile_imp hc
  · exact fun c hc => List.mem_rtakeWhile_imp hc
  · rw [trimChars_eq_rdropWhile, List.append_assoc, List.rdropWhile_append_rtakeWhile,
      List.takeWhile_append_dropWhile]

/-! ## Texts -/

@[simp] theorem toList_trim (s : String) : (trim s).toList = trimChars s.toList := by
  rw [trim, String.toList_ofList]

/-- Trimming a text twice is trimming it once. -/
@[simp] theorem trim_trim (s : String) : trim (trim s) = trim s := by
  rw [trim, toList_trim, trimChars_trimChars, trim]

/-- A text is blank just when all its characters are blanks. -/
theorem isBlankText_iff {s : String} : isBlankText s = true ↔ ∀ c ∈ s.toList, isBlank c :=
  List.all_eq_true

/-- Trimming leaves nothing of a blank text, and something of every other text. -/
theorem trim_eq_empty {s : String} : trim s = "" ↔ isBlankText s = true := by
  rw [isBlankText_iff, ← trimChars_eq_nil, ← toList_trim, String.toList_eq_nil_iff]

/-- Blanks around a text do not tell whether it is blank. -/
@[simp] theorem isBlankText_trim (s : String) : isBlankText (trim s) = isBlankText s := by
  rw [Bool.eq_iff_iff, ← trim_eq_empty, ← trim_eq_empty, trim_trim]

/-- A text is not blank if something else than a blank stands in what trimming leaves. -/
theorem isBlankText_of_mem_trim {s : String} {c : Char} (hmem : c ∈ (trim s).toList)
    (hc : isBlank c = false) : isBlankText s = false := by
  rw [← Bool.not_eq_true, ← isBlankText_trim, isBlankText_iff]
  intro hall
  rw [hall c hmem] at hc
  cases hc

/-- A text that has no blanks is left as it is. -/
theorem trim_of_forall {s : String} (h : ∀ c ∈ s.toList, isBlank c = false) : trim s = s := by
  rw [trim, trimChars_of_forall h, String.ofList_toList]

/-- A text is another one with blanks around it. -/
def Padded (s t : String) : Prop :=
  ∃ front back, (∀ c ∈ front, isBlank c) ∧ (∀ c ∈ back, isBlank c) ∧
    s.toList = front ++ t.toList ++ back

/-- Trimming takes blanks away, and nothing else. -/
theorem padded_trim (s : String) : Padded s (trim s) := by
  obtain ⟨front, back, hfront, hback, heq⟩ := exists_eq_append_trimChars s.toList
  exact ⟨front, back, hfront, hback, by rw [toList_trim, ← heq]⟩

/-- Trimming leaves the text that blanks stand around. -/
theorem Padded.trim_eq {s t : String} (h : Padded s t) : trim s = trim t := by
  obtain ⟨front, back, hfront, hback, heq⟩ := h
  rw [trim, heq, trimChars_append_append hfront hback, trim]

/-- Trimming leaves a text just when it is that text with blanks around it. -/
theorem trim_eq_iff_padded {s t : String} (ht : trim t = t) : trim s = t ↔ Padded s t := by
  constructor
  · rintro rfl
    exact padded_trim s
  · intro h
    rw [h.trim_eq, ht]

/-! ## What is left of optional texts -/

/-- What trimming leaves of an optional text, and the empty text where there is none. -/
def trimmed (o : Option String) : String :=
  trim (o.getD "")

/-- A setting is left open: its text is absent, or trimming leaves nothing of it. -/
def IsOpen (o : Option String) : Prop :=
  trimmed o = ""

instance (o : Option String) : Decidable (IsOpen o) :=
  inferInstanceAs (Decidable (trimmed o = ""))

/-- What a reader is shown of an optional text: the trimmed text, if anything is left. -/
def shown (o : Option String) : Option String :=
  if trimmed o = "" then none else some (trimmed o)

/-- What a reader is shown of several texts: the trimmed ones of which anything is left, in
order. -/
def shownAll (ss : List String) : List String :=
  (ss.map trim).filter (· ≠ "")

/-- What is not blank is what is shown. -/
theorem nonBlank_eq_shown (o : Option String) : nonBlank o = shown o := by
  cases o with
  | none => rfl
  | some s =>
    simp only [nonBlank, Option.bind_some, shown, trimmed, Option.getD_some, trim_eq_empty]

/-- The entries that are not blank are those that are shown. -/
theorem nonBlanks_eq_shownAll (ss : List String) : nonBlanks ss = shownAll ss := by
  induction ss with
  | nil => rfl
  | cons s ss ih =>
    rw [nonBlanks, List.filterMap_cons, ← nonBlanks, ih, nonBlank_eq_shown, shown, trimmed,
      Option.getD_some, shownAll, shownAll, List.map_cons, List.filter_cons]
    by_cases h : trim s = "" <;> simp [h]

/-- Of a setting that is left open nothing is shown, and of every other one something. -/
theorem isOpen_iff {o : Option String} : IsOpen o ↔ nonBlank o = none := by
  rw [nonBlank_eq_shown, shown, ite_eq_left_iff]
  simp [IsOpen]

/-- Blanks around a setting do not tell whether it is left open. -/
@[simp] theorem isOpen_map_trim {o : Option String} : IsOpen (o.map trim) ↔ IsOpen o := by
  cases o with
  | none => rfl
  | some s => rw [IsOpen, IsOpen, trimmed, trimmed, Option.map_some, Option.getD_some, trim_trim,
      Option.getD_some]

/-- Nothing is shown of a setting that is left open. -/
theorem IsOpen.shown_eq {o : Option String} (h : IsOpen o) : shown o = none :=
  if_pos h

/-- What is shown is trimmed. -/
theorem trim_of_shown {o : Option String} {t : String} (h : shown o = some t) : trim t = t := by
  rw [shown, Option.ite_none_left_eq_some, Option.some.injEq] at h
  rw [← h.2, trimmed, trim_trim]

/-- What is shown is shown as it is. -/
theorem shown_of_shown {o : Option String} {t : String} (h : shown o = some t) :
    shown (some t) = some t := by
  have htrim := trim_of_shown h
  rw [shown, Option.ite_none_left_eq_some, Option.some.injEq] at h
  rw [shown, trimmed, Option.getD_some, htrim, if_neg (h.2 ▸ h.1)]

/-- One text is shown by itself as it is among others. -/
theorem shownAll_singleton (s : String) : shownAll [s] = (shown (some s)).toList := by
  rw [shownAll, List.map_singleton, shown, trimmed, Option.getD_some]
  by_cases h : trim s = "" <;> simp [h]

/-! ## Optional texts -/

/-- What `nonBlank` finds is trimmed. -/
theorem nonBlank_eq_some {o : Option String} {t : String} :
    nonBlank o = some t ↔ ∃ s, o = some s ∧ isBlankText s = false ∧ trim s = t := by
  rw [nonBlank, Option.bind_eq_some_iff]
  refine exists_congr fun s => and_congr_right fun _ => ?_
  cases isBlankText s <;> simp

/-- Blanks around a text do not tell what is found. -/
@[simp] theorem nonBlank_map_trim (o : Option String) : nonBlank (o.map trim) = nonBlank o := by
  cases o with
  | none => rfl
  | some s => simp [nonBlank]

/-- A text that is trimmed and not blank is found as it is. -/
theorem nonBlank_some_of_trim {s : String} (hblank : isBlankText s = false) (htrim : trim s = s) :
    nonBlank (some s) = some s := by
  simp [nonBlank, hblank, htrim]

@[simp] theorem trim_comp_trim : trim ∘ trim = trim :=
  funext trim_trim

theorem map_trim_map_trim (o : Option String) : (o.map trim).map trim = o.map trim := by
  rw [Option.map_map, trim_comp_trim]

end TunnelMesh.Text
