import Mathlib
import TunnelMesh.Config.Ini
import TunnelMesh.Proofs.Config.Values
import TunnelMesh.Proofs.List

/-!
# The lines of a configuration file

The text of a configuration is its lines, each ended by a line break (`Config.toList_ini`): a title
for each section, a blank line before each peer, and a line for each field. A file is read back as
these lines just when no value has a line break in it, and as more lines otherwise
(`Config.wellLined_fileLines_iff`).
-/

namespace TunnelMesh

open Ini Text

namespace Ini

/-! ## Lines of a text -/

/-- What stands before each line break of a text. -/
def fileLines (text : String) : List String :=
  ((text.toList.splitOn '\n').dropLast).map String.ofList

/-- Lines, each ended by a line break. -/
def terminated (lines : List String) : List Char :=
  lines.flatMap fun l => l.toList ++ ['\n']

theorem terminated_append (front back : List String) :
    terminated (front ++ back) = terminated front ++ terminated back :=
  List.flatMap_append

/-- Lines with breaks between them and one at the end are lines that are each ended by a break. -/
theorem toList_intercalate_append (first : String) (rest : List String) :
    ("\n".intercalate (first :: rest) ++ "\n").toList = terminated (first :: rest) := by
  induction rest generalizing first with
  | nil => simp [terminated]
  | cons second rest ih =>
    rw [String.intercalate_cons_cons, String.append_assoc, String.toList_append,
      ih second, String.toList_append]
    simp [terminated]

/-- A text has one line more than it has line breaks. -/
theorem length_splitOn (cs : List Char) : (cs.splitOn '\n').length = cs.count '\n' + 1 := by
  induction cs with
  | nil => rfl
  | cons c cs ih =>
    rw [List.splitOn_cons_eq_if_modifyHead, List.count_cons]
    split <;> simp [ih]

/-- A text has a line for each line break. -/
theorem length_fileLines (text : String) :
    (fileLines text).length = text.toList.count '\n' := by
  rw [fileLines, List.length_map, List.length_dropLast, length_splitOn, Nat.add_sub_cancel]

/-- Lines without line breaks are told apart in what is written of them, with nothing behind the
last line break. -/
theorem splitOn_terminated {lines : List String} (h : ∀ l ∈ lines, '\n' ∉ l.toList) :
    (terminated lines).splitOn '\n' = lines.map String.toList ++ [[]] := by
  induction lines with
  | nil => rfl
  | cons l lines ih =>
    rw [List.forall_mem_cons] at h
    rw [terminated, List.flatMap_cons, List.append_assoc, List.singleton_append,
      List.splitOn_append_cons_self_of_not_mem h.1, ← terminated, ih h.2]
    rfl

/-- Lines without breaks in them are read back. -/
theorem fileLines_of_terminated {text : String} {lines : List String}
    (htext : text.toList = terminated lines) (h : ∀ l ∈ lines, '\n' ∉ l.toList) :
    fileLines text = lines := by
  rw [fileLines, htext, splitOn_terminated h, List.dropLast_concat, List.map_map]
  refine List.map_id'' (fun l => ?_) lines
  rw [Function.comp_apply, String.ofList_toList]

/-- Every break inside a line makes one more line. -/
theorem length_fileLines_of_terminated {text : String} {lines : List String}
    (htext : text.toList = terminated lines) :
    (fileLines text).length = lines.length + (lines.map fun l => l.toList.count '\n').sum := by
  rw [length_fileLines, htext]
  clear htext
  induction lines with
  | nil => rfl
  | cons l lines ih =>
    rw [terminated, List.flatMap_cons, List.count_append, ← terminated, ih, List.count_append]
    simp
    omega

/-! ## Fields -/

/-- The fields of a table that has a list of values for each label: one for each value. -/
def fieldsOf (rows : List (String × List String)) : List (String × String) :=
  rows.flatMap fun r => r.2.map (r.1, ·)

/-- The line of a field: an equals sign between the label and the value. -/
def fieldLine (f : String × String) : String :=
  f.1 ++ " = " ++ f.2

theorem fieldLine_eq_line (f : String × String) : fieldLine f = line f.1 f.2 := rfl

/-- The fields of the first label stand before those of the others. -/
theorem fieldsOf_cons (r : String × List String) (rows : List (String × List String)) :
    fieldsOf (r :: rows) = r.2.map (r.1, ·) ++ fieldsOf rows :=
  List.flatMap_cons

/-- The label of a field is one of the table. -/
theorem label_mem_of_mem_fieldsOf {rows : List (String × List String)} {f : String × String}
    (hf : f ∈ fieldsOf rows) : f.1 ∈ rows.map Prod.fst := by
  obtain ⟨r, hr, hf⟩ := List.mem_flatMap.1 hf
  obtain ⟨v, -, rfl⟩ := List.mem_map.1 hf
  exact List.mem_map_of_mem hr

/-- The values of a label are those of its rows. -/
theorem values_fieldsOf (rows : List (String × List String)) (label : String) :
    ((fieldsOf rows).filter (·.1 == label)).map (·.2) =
      (rows.filter (·.1 == label)).flatMap (·.2) := by
  induction rows with
  | nil => rfl
  | cons r rows ih =>
    have hrow : (r.2.map (r.1, ·)).filter (·.1 == label) =
        if (r.1 == label) = true then r.2.map (r.1, ·) else [] := by
      cases h : r.1 == label <;> simp [List.filter_map, Function.comp_def, h]
    rw [fieldsOf_cons, List.filter_append, List.map_append, ih, hrow, List.filter_cons]
    split
    · rw [List.flatMap_cons, List.map_map]
      exact congrArg (· ++ _) (List.map_id r.2)
    · rfl

/-- A value of a field is one of its row, and is written behind the label of the row. -/
theorem map_fieldLine_fieldsOf (rows : List (String × List String)) :
    (fieldsOf rows).map fieldLine = rows.flatMap fun r => r.2.map (line r.1) := by
  rw [fieldsOf, List.map_flatMap]
  simp only [List.map_map]
  rfl

/-- The characters of a line. -/
theorem toList_line (label value : String) :
    (line label value).toList = label.toList ++ (" = ".toList ++ value.toList) := by
  rw [line, String.toList_append, String.toList_append, List.append_assoc]

/-- A line tells its label, if there is no equals sign in it, and its value. -/
theorem line_inj {label label' value value' : String} (h : '=' ∉ label.toList)
    (h' : '=' ∉ label'.toList) :
    line label value = line label' value' ↔ label = label' ∧ value = value' := by
  -- a line is cut at its first equals sign, with a blank before it and one behind it
  have hcut : ∀ label value : String,
      (line label value).toList = (label.toList ++ [' ']) ++ '=' :: (' ' :: value.toList) := by
    intro label value
    rw [toList_line, List.append_assoc]
    rfl
  have hbefore : ∀ {cs : List Char}, '=' ∉ cs → '=' ∉ cs ++ [' '] := by
    intro cs hcs
    simpa using hcs
  rw [← String.toList_inj, hcut, hcut, List.append_cons_inj_of_first (hbefore h) (hbefore h'),
    List.append_cancel_right_eq, String.toList_inj, List.cons_inj_right, String.toList_inj]

/-- A line break in a field is one in a value of its row. -/
theorem newline_not_mem_fieldsOf {rows : List (String × List String)} :
    (∀ f ∈ fieldsOf rows, '\n' ∉ f.2.toList) ↔ ∀ r ∈ rows, ∀ v ∈ r.2, '\n' ∉ v.toList := by
  simp only [fieldsOf, List.forall_mem_flatMap, List.forall_mem_map]

/-- Numbers are written without line breaks. -/
theorem newline_not_mem_repr (n : Nat) : '\n' ∉ n.repr.toList := by
  have hdigits : n.repr.toList = Decimal.digits n := String.toList_ofList
  rw [hdigits]
  exact fun h => absurd (Nat.isDigit_of_mem_toDigits (by decide) (by decide) h) (by decide)

/-- Optional numbers are written without line breaks. -/
theorem newline_not_mem_number {α : Type} {n : Option α} (toNat : α → Nat) :
    ∀ v ∈ (n.map fun n => (toNat n).repr).toList, '\n' ∉ v.toList := by
  cases n with
  | none => simp
  | some n => simpa using newline_not_mem_repr (toNat n)

/-- Texts with commas between them have a line break just where one of them has. -/
theorem newline_not_mem_intercalate (first : String) (rest : List String) :
    '\n' ∉ (",".intercalate (first :: rest)).toList ↔ ∀ v ∈ first :: rest, '\n' ∉ v.toList := by
  induction rest generalizing first with
  | nil => simp
  | cons second rest ih =>
    have hcomma : '\n' ∉ ",".toList := by decide
    rw [String.intercalate_cons_cons, String.toList_append, String.toList_append, List.mem_append,
      List.mem_append, not_or, not_or, ih second, List.forall_mem_cons (a := first)]
    exact ⟨fun h => ⟨h.1.1, h.2⟩, fun h => ⟨⟨h.1, hcomma⟩, h.2⟩⟩

/-- Entries that are joined have a line break just where one of them has. -/
theorem newline_not_mem_joined {es : List String} :
    (∀ v ∈ (shownJoined es).toList, '\n' ∉ v.toList) ↔ ∀ v ∈ shownAll es, '\n' ∉ v.toList := by
  rw [shownJoined]
  cases shownAll es with
  | nil => simp
  | cons first rest =>
    rw [if_neg (List.cons_ne_nil _ _), Option.toList_some, List.forall_mem_singleton,
      newline_not_mem_intercalate]

/-- An endpoint has a line break just where its host has. -/
theorem newline_not_mem_endpoint {e : Option Endpoint} :
    (∀ v ∈ ((e.map Endpoint.shown).map fun (host, port) =>
        host ++ ":" ++ port.toNat.repr).toList, '\n' ∉ v.toList) ↔
      ∀ v ∈ (e.map Endpoint.host).toList, '\n' ∉ v.toList := by
  cases e with
  | none => simp
  | some e =>
    have hport := newline_not_mem_repr e.port.toNat
    simp only [Option.map_some, Option.toList_some, List.forall_mem_singleton, Endpoint.shown,
      String.toList_append, List.mem_append, hport, or_false]
    split <;> simp

/-- A field is written on the line of its row, if there is one. -/
theorem field_eq (label : String) (value : Option String) :
    field label value = value.toList.map (line label) := by
  cases value <;> rfl

/-- Entries are joined as they are shown. -/
theorem joined_eq_shownJoined (es : List String) : joined es = shownJoined es := by
  rw [joined, shownJoined, nonBlanks_eq_shownAll]
  cases shownAll es <;> rfl

/-- The text of an endpoint is what is shown of it. -/
theorem text_endpoint (e : Endpoint) :
    e.text = e.shown.1 ++ ":" ++ e.shown.2.toNat.repr := by
  have hbracket : ("]:" : String) = "]" ++ ":" := rfl
  rw [Endpoint.text, Endpoint.shown]
  split
  · rw [hbracket, ← String.append_assoc]
    rfl
  · rfl

end Ini

open Ini

/-- The fields of an interface, in the order of their lines. -/
def Interface.fields (i : Interface) : List (String × String) :=
  fieldsOf i.shown.rows

/-- The hooks of an interface, with their labels. -/
def Interface.hooks (i : Interface) : List (String × List String) :=
  [("PreUp", i.preUp), ("PostUp", i.postUp), ("PreDown", i.preDown), ("PostDown", i.postDown)]

/-- The fields of a peer, in the order of their lines. -/
def Peer.fields (p : Peer) : List (String × String) :=
  fieldsOf p.shown.rows

/-- The texts that an interface shows as they are given. -/
def Interface.texts (i : Interface) : List String :=
  (Text.shown (some i.name)).toList ++ ((Text.shown i.address).toList ++
    ((Text.shown i.privateKey).toList ++ (shownAll i.dns ++ ((Text.shown i.table).toList ++
      (shownAll i.preUp ++ (shownAll i.postUp ++ (shownAll i.preDown ++
        shownAll i.postDown)))))))

/-- The texts that a peer shows as they are given. -/
def Peer.texts (p : Peer) : List String :=
  (Text.shown (some p.name)).toList ++ ((p.endpoint.map Endpoint.host).toList ++
    ((Text.shown p.publicKey).toList ++ shownAll p.allowedIps))

/-- The section of an interface is its title and the lines of its fields. -/
theorem Interface.lines_eq (i : Interface) :
    i.lines = "[Interface]" :: i.fields.map fieldLine := by
  simp only [lines, number, hook, field_eq, nonBlank_eq_shown, nonBlanks_eq_shownAll,
    joined_eq_shownJoined, fields, map_fieldLine_fieldsOf, Shown.rows, shown, List.flatMap_cons,
    List.flatMap_nil, List.append_nil, Option.map_map]
  rfl

/-- The section of a peer is its title and the lines of its fields. -/
theorem Peer.lines_eq (p : Peer) : p.lines = "[Peer]" :: p.fields.map fieldLine := by
  have hendpoint : p.endpoint.map Endpoint.text =
      (p.endpoint.map Endpoint.shown).map fun (host, port) => host ++ ":" ++ port.toNat.repr := by
    rw [Option.map_map]
    exact congrArg p.endpoint.map (funext text_endpoint)
  simp only [lines, number, field_eq, nonBlank_eq_shown, joined_eq_shownJoined, hendpoint, fields,
    map_fieldLine_fieldsOf, Shown.rows, shown, List.flatMap_cons, List.flatMap_nil,
    List.append_nil, Option.map_map]
  rfl

/-- The text of a peer's section, ended by a line break, is its lines. -/
theorem Peer.toList_ini (p : Peer) :
    (p.ini ++ "\n").toList = terminated ("[Peer]" :: p.fields.map fieldLine) := by
  rw [ini, lines_eq, toList_intercalate_append]

namespace Config

/-- The fields of all sections, in the order of their lines. -/
def fields (c : Config) : List (String × String) :=
  c.interface.fields ++ c.peers.flatMap Peer.fields

/-- The lines that a configuration is written as: those of its sections, with a blank line before
each peer. -/
def lines (c : Config) : List String :=
  c.interface.lines ++ c.peers.flatMap fun p => "" :: p.lines

/-- The text of a configuration is its lines, each ended by a line break. -/
theorem toList_ini (c : Config) : c.ini.toList = terminated c.lines := by
  have hsections : ∀ (first : String) (rest : List String) (ps : List Peer),
      ("\n\n".intercalate ("\n".intercalate (first :: rest) :: ps.map Peer.ini) ++ "\n").toList =
        terminated ((first :: rest) ++ ps.flatMap fun p => "" :: p.lines) := by
    intro first rest ps
    induction ps generalizing first rest with
    | nil => simpa using toList_intercalate_append first rest
    | cons p ps ih =>
      have hbreak : ("\n\n" : String) = "\n" ++ "\n" := rfl
      have hpeer := ih "[Peer]" (p.fields.map fieldLine)
      calc ("\n\n".intercalate ("\n".intercalate (first :: rest) ::
              (p :: ps).map Peer.ini) ++ "\n").toList
          = ("\n".intercalate (first :: rest) ++ "\n").toList ++ "\n".toList ++
              ("\n\n".intercalate (p.ini :: ps.map Peer.ini) ++ "\n").toList := by
            rw [List.map_cons, String.intercalate_cons_cons, hbreak]
            simp only [String.toList_append, List.append_assoc]
        _ = terminated (first :: rest) ++ terminated [""] ++
              terminated (p.lines ++ ps.flatMap fun p => "" :: p.lines) := by
            rw [toList_intercalate_append, Peer.ini, Peer.lines_eq, hpeer]
            rfl
        _ = _ := by
            rw [← terminated_append, ← terminated_append, List.flatMap_cons, List.append_assoc]
            rfl
  rw [ini, sections, Interface.ini, Interface.lines_eq, hsections, lines, Interface.lines_eq]

/-- The lines of a configuration, with titles before the fields of each section. -/
theorem lines_eq (c : Config) : c.lines = "[Interface]" :: (c.interface.fields.map fieldLine ++
    c.peers.flatMap fun p => "" :: "[Peer]" :: p.fields.map fieldLine) := by
  simp only [lines, Interface.lines_eq, Peer.lines_eq, List.cons_append]

/-- No label has an equals sign or a line break in it. -/
theorem label_of_mem_fields {c : Config} {f : String × String} (hf : f ∈ c.fields) :
    '=' ∉ f.1.toList ∧ '\n' ∉ f.1.toList := by
  have hinterface : ∀ label ∈ Interface.labels, '=' ∉ label.toList ∧ '\n' ∉ label.toList := by
    decide
  have hpeer : ∀ label ∈ Peer.labels, '=' ∉ label.toList ∧ '\n' ∉ label.toList := by decide
  rw [fields, List.mem_append, List.mem_flatMap] at hf
  rcases hf with hf | ⟨p, -, hf⟩
  · exact hinterface _ (label_mem_of_mem_fieldsOf hf)
  · exact hpeer _ (label_mem_of_mem_fieldsOf hf)

/-- The values of all fields of a label, in the order of their lines. -/
def valuesOf (c : Config) (label : String) : List String :=
  (c.fields.filter (·.1 == label)).map (·.2)

/-- The hook lines of a configuration are those of its interface, one for each command. -/
theorem valuesOf_hook (c : Config) {hook : String × List String}
    (hhook : hook ∈ c.interface.hooks) : c.valuesOf hook.1 = shownAll hook.2 := by
  have hlabel : hook.1 ∉ Peer.labels := by
    have hhooks : ∀ label ∈ c.interface.hooks.map Prod.fst, label ∉ Peer.labels :=
      (by decide : ∀ label ∈ ["PreUp", "PostUp", "PreDown", "PostDown"], label ∉ Peer.labels)
    exact hhooks _ (List.mem_map_of_mem hhook)
  have hpeers : (c.peers.flatMap Peer.fields).filter (·.1 == hook.1) = [] := by
    refine List.filter_eq_nil_iff.2 fun f hf hsame => hlabel ?_
    obtain ⟨p, -, hf⟩ := List.mem_flatMap.1 hf
    rw [← beq_iff_eq.1 hsame]
    exact label_mem_of_mem_fieldsOf hf
  rw [valuesOf, fields, List.filter_append, hpeers, List.append_nil, Interface.fields,
    values_fieldsOf]
  simp only [Interface.hooks, List.mem_cons, List.not_mem_nil, or_false] at hhook
  rcases hhook with rfl | rfl | rfl | rfl
  all_goals exact List.append_nil _

/-- A list of lines has the structure of a configuration: one title for the interface, a title and a
blank line for each peer, a line for each field, and no other lines. -/
structure WellLined (c : Config) (ls : List String) : Prop where
  interface : ls.count "[Interface]" = 1
  peers : ls.count "[Peer]" = c.peers.length
  blanks : ls.count "" = c.peers.length
  /-- Each label stands before each of its values as often as the configuration has that field. -/
  fields : ∀ label value : String, '=' ∉ label.toList →
    ls.count (label ++ " = " ++ value) = c.fields.count (label, value)
  length_eq : ls.length = 1 + 2 * c.peers.length + c.fields.length

/-- How often a line stands in a configuration: as a title, as a blank line, and for fields. -/
theorem count_lines (c : Config) (l : String) : c.lines.count l =
    (if l = "[Interface]" then 1 else 0) +
      c.peers.length * ((if l = "" then 1 else 0) + if l = "[Peer]" then 1 else 0) +
        (c.fields.map fieldLine).count l := by
  have hbeq : ∀ title : String, (if (title == l) = true then 1 else 0) =
      if l = title then 1 else 0 := fun title => by simp only [beq_iff_eq, eq_comm (a := l)]
  rw [lines_eq, fields, List.map_append, List.count_append, List.count_cons, List.count_append,
    hbeq]
  induction c.peers with
  | nil => simp; omega
  | cons p ps ih =>
    rw [List.flatMap_cons, List.flatMap_cons, List.map_append, List.count_append, List.count_append,
      List.count_cons, List.count_cons, List.length_cons, Nat.succ_mul, hbeq, hbeq]
    omega

/-- A labelled line has an equals sign. -/
theorem equals_mem_line (label value : String) : '=' ∈ (line label value).toList := by
  rw [toList_line, List.mem_append, List.mem_append]
  exact .inr (.inl (by decide))

/-- The lines of fields are told apart by their labels and values. -/
theorem count_line_lines (c : Config) {label : String} (value : String)
    (hlabel : '=' ∉ label.toList) :
    c.lines.count (line label value) = c.fields.count (label, value) := by
  have htitle : ∀ title : String, '=' ∉ title.toList → line label value ≠ title := by
    rintro title h rfl
    exact h (equals_mem_line label value)
  rw [count_lines, if_neg (htitle _ (by decide)), if_neg (htitle _ (by decide)),
    if_neg (htitle _ (by decide)), Nat.add_zero, Nat.mul_zero, Nat.zero_add, List.count,
    List.countP_map, List.count]
  refine List.countP_congr fun f hf => ?_
  rw [Function.comp_apply, beq_iff_eq, beq_iff_eq, fieldLine_eq_line,
    line_inj (label_of_mem_fields hf).1 hlabel, Prod.ext_iff]

/-- No line of a field is a title. -/
theorem count_title_lines (c : Config) (title : String) (htitle : '=' ∉ title.toList) :
    c.lines.count title = (if title = "[Interface]" then 1 else 0) +
      c.peers.length * ((if title = "" then 1 else 0) + if title = "[Peer]" then 1 else 0) := by
  have hnot : title ∉ c.fields.map fieldLine := by
    intro hmem
    obtain ⟨f, -, rfl⟩ := List.mem_map.1 hmem
    exact htitle (equals_mem_line f.1 f.2)
  rw [count_lines, List.count_eq_zero.2 hnot, Nat.add_zero]

/-- A configuration has a line for each section and field, and an empty one before each peer. -/
theorem length_lines (c : Config) :
    c.lines.length = 1 + 2 * c.peers.length + c.fields.length := by
  rw [lines_eq, List.length_cons, List.length_append, fields, List.length_append, List.length_map]
  induction c.peers with
  | nil => simp; omega
  | cons p ps ih =>
    simp only [List.flatMap_cons, List.length_append, List.length_cons, List.length_map] at ih ⊢
    omega

/-- The lines that a configuration is written as have its structure. -/
theorem wellLined_lines (c : Config) : c.WellLined c.lines where
  interface := by simpa using c.count_title_lines "[Interface]" (by decide)
  peers := by simpa using c.count_title_lines "[Peer]" (by decide)
  blanks := by simpa using c.count_title_lines "" (by decide)
  fields := fun label value hlabel => c.count_line_lines value hlabel
  length_eq := c.length_lines

/-- The texts that a configuration shows as they are given, apart from blanks at their ends. -/
def texts (c : Config) : List String :=
  c.interface.texts ++ c.peers.flatMap Peer.texts

/-- Line breaks in lines come from the values of fields. -/
theorem newline_not_mem_lines_iff (c : Config) :
    (∀ l ∈ c.lines, '\n' ∉ l.toList) ↔ ∀ f ∈ c.fields, '\n' ∉ f.2.toList := by
  have hfield : ∀ f ∈ c.fields, '\n' ∉ (fieldLine f).toList ↔ '\n' ∉ f.2.toList := by
    intro f hf
    have hsep : '\n' ∉ " = ".toList := by decide
    rw [fieldLine_eq_line, toList_line, List.mem_append, List.mem_append, not_or, not_or]
    exact ⟨fun h => h.2.2, fun h => ⟨(label_of_mem_fields hf).2, hsep, h⟩⟩
  have htitles : '\n' ∉ "[Interface]".toList ∧ '\n' ∉ "".toList ∧ '\n' ∉ "[Peer]".toList := by
    decide
  calc (∀ l ∈ c.lines, '\n' ∉ l.toList)
      ↔ ∀ l ∈ c.fields.map fieldLine, '\n' ∉ l.toList := by
        rw [lines_eq, fields, List.map_append, List.forall_mem_cons, List.forall_mem_append,
          List.forall_mem_append, List.map_flatMap]
        simp only [List.forall_mem_flatMap, List.forall_mem_cons, htitles, true_and,
          not_false_eq_true]
    _ ↔ ∀ f ∈ c.fields, '\n' ∉ f.2.toList := by
        rw [List.forall_mem_map]
        exact forall₂_congr hfield

/-- Line breaks in the values of fields come from the texts of the configuration. -/
theorem newline_not_mem_fields_iff (c : Config) :
    (∀ f ∈ c.fields, '\n' ∉ f.2.toList) ↔ ∀ v ∈ c.texts, '\n' ∉ v.toList := by
  rw [fields, texts, List.forall_mem_append, List.forall_mem_append, List.forall_mem_flatMap,
    List.forall_mem_flatMap]
  refine and_congr ?_ (forall₂_congr fun p _ => ?_)
  · simp only [Interface.fields, newline_not_mem_fieldsOf, Interface.Shown.rows, Interface.shown,
      List.forall_mem_cons, List.not_mem_nil, false_implies, implies_true, and_true,
      Interface.texts,
      List.forall_mem_append, newline_not_mem_joined,
      iff_true_intro (newline_not_mem_number UInt16.toNat),
      iff_true_intro (newline_not_mem_number UInt32.toNat), true_and]
  · simp only [Peer.fields, newline_not_mem_fieldsOf, Peer.Shown.rows, Peer.shown,
      List.forall_mem_cons, List.not_mem_nil, false_implies, implies_true, and_true,
      Peer.texts, List.forall_mem_append,
      newline_not_mem_joined, newline_not_mem_endpoint,
      iff_true_intro (newline_not_mem_number UInt16.toNat)]

/-- A file has the structure of its configuration just when no text that it shows has a line break
in it. -/
theorem wellLined_fileLines_iff (c : Config) :
    c.WellLined (fileLines c.ini) ↔ ∀ v ∈ c.texts, '\n' ∉ v.toList := by
  rw [← newline_not_mem_fields_iff, ← newline_not_mem_lines_iff]
  constructor
  · intro h
    have hlength := length_fileLines_of_terminated c.toList_ini
    rw [h.length_eq, c.length_lines] at hlength
    have hsum : (c.lines.map fun l => l.toList.count '\n').sum = 0 := by omega
    rw [List.sum_eq_zero_iff_forall_eq_nat, List.forall_mem_map] at hsum
    exact fun l hl => List.count_eq_zero.1 (hsum l hl)
  · intro h
    rw [fileLines_of_terminated c.toList_ini h]
    exact c.wellLined_lines

end Config

end TunnelMesh
