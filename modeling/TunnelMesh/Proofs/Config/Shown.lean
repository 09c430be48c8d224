import Mathlib
import TunnelMesh.Proofs.Config.Lines
import TunnelMesh.Proofs.Text.Decimal

/-!
# A file tells what it shows

Two configurations without line breaks in their texts have one file just when they show the same
(`Config.ini_eq_iff_shown_eq`). So blanks around values, blank entries and the name of the network
do not go into a file, and all else that is shown does. This is because what is shown is read back
from a file in three steps: its lines (`Config.fileLines_ini`), the sections between its blank lines
(`Config.splitOn_lines`), and the values of each label of a section (`Ini.rows_eq_of_lines`).
-/

namespace TunnelMesh

open Ini Text

namespace Ini

/-! ## Values -/

/-- The value of an optional field is told by the list of its values. -/
theorem toList_option_inj {α : Type} {o o' : Option α} : o.toList = o'.toList ↔ o = o' := by
  cases o <;> cases o' <;> simp

/-- Numbers of sixteen bits are written differently. -/
theorem repr_uint16_injective : Function.Injective fun n : UInt16 => n.toNat.repr :=
  fun _ _ h => UInt16.toNat_inj.1 (Decimal.text_injective h)

/-- Numbers of thirty-two bits are written differently. -/
theorem repr_uint32_injective : Function.Injective fun n : UInt32 => n.toNat.repr :=
  fun _ _ h => UInt32.toNat_inj.1 (Decimal.text_injective h)

/-- Endpoints that differ are written differently: the port stands behind the last colon. -/
theorem endpoint_injective :
    Function.Injective fun e : String × UInt16 => e.1 ++ ":" ++ e.2.toNat.repr := by
  have hcut : ∀ e : String × UInt16, (e.1 ++ ":" ++ e.2.toNat.repr).toList =
      e.1.toList ++ ':' :: Decimal.digits e.2.toNat := by
    intro e
    have hport : e.2.toNat.repr.toList = Decimal.digits e.2.toNat := String.toList_ofList
    rw [String.toList_append, String.toList_append, List.append_assoc, hport]
    rfl
  have hcolon : ∀ n, ':' ∉ Decimal.digits n := fun n h =>
    absurd (Decimal.isDigit_of_mem_digits h) (by decide)
  intro e e' h
  have hchars := congrArg String.toList h
  rw [hcut, hcut, List.append_cons_inj_of_last (hcolon _) (hcolon _), String.toList_inj] at hchars
  refine Prod.ext hchars.1 (UInt16.toNat_inj.1 ?_)
  rw [← Decimal.value_digits e.2.toNat, hchars.2, Decimal.value_digits]

/-! ## Tables of fields -/

/-- A table is read back from its fields if no label stands in it twice. -/
theorem fieldsOf_inj {rows rows' : List (String × List String)}
    (hlabels : rows.map Prod.fst = rows'.map Prod.fst) (hnodup : (rows.map Prod.fst).Nodup) :
    fieldsOf rows = fieldsOf rows' ↔ rows = rows' := by
  refine ⟨fun h => ?_, congrArg fieldsOf⟩
  induction rows generalizing rows' with
  | nil => exact (List.map_eq_nil_iff.1 hlabels.symm).symm
  | cons r rows ih =>
    obtain ⟨r', rest, rfl, hlabel, hrest⟩ := List.map_eq_cons_iff.1 hlabels.symm
    rw [List.map_cons, List.nodup_cons] at hnodup
    -- behind the row of the first label there are none with that label
    have hnone : ∀ {rest : List (String × List String)}, rest.map Prod.fst = rows.map Prod.fst →
        rest.filter (·.1 == r.1) = [] := by
      intro rest hrest
      refine List.filter_eq_nil_iff.2 fun f hf hlabel => hnodup.1 ?_
      rw [← beq_iff_eq.1 hlabel, ← hrest]
      exact List.mem_map_of_mem hf
    have hvalues := congrArg (fun fs => (fs.filter (·.1 == r.1)).map (·.2)) h
    simp only [values_fieldsOf, List.filter_cons, hlabel, BEq.rfl, if_true, hnone rfl, hnone hrest,
      List.flatMap_cons, List.flatMap_nil, List.append_nil] at hvalues
    rw [fieldsOf_cons, fieldsOf_cons, hlabel, hvalues] at h
    rw [ih hrest.symm hnodup.2 (List.append_cancel_left h), Prod.ext hlabel.symm hvalues]

/-! ## The lines of a section -/

/-- The lines of fields tell the fields, if no label has an equals sign in it. -/
theorem map_fieldLine_inj {fs fs' : List (String × String)} (h : ∀ f ∈ fs, '=' ∉ f.1.toList)
    (h' : ∀ f ∈ fs', '=' ∉ f.1.toList) : fs.map fieldLine = fs'.map fieldLine ↔ fs = fs' := by
  refine ⟨fun heq => ?_, congrArg _⟩
  induction fs generalizing fs' with
  | nil => exact (List.map_eq_nil_iff.1 heq.symm).symm
  | cons f fs ih =>
    obtain ⟨f', rest, rfl, hfirst, hrest⟩ := List.map_eq_cons_iff.1 heq.symm
    rw [List.forall_mem_cons] at h h'
    obtain ⟨hlabel, hvalue⟩ := (line_inj h'.1 h.1).1 hfirst
    rw [Prod.ext hlabel.symm hvalue.symm, ih h.2 h'.2 hrest.symm]

/-- The lines of a table tell its values, if its labels are different and without equals signs. -/
theorem rows_eq_of_lines (labels : List String) (hnodup : labels.Nodup)
    (hequals : ∀ label ∈ labels, '=' ∉ label.toList) {rows rows' : List (String × List String)}
    (hrows : rows.map Prod.fst = labels) (hrows' : rows'.map Prod.fst = labels)
    (h : (fieldsOf rows).map fieldLine = (fieldsOf rows').map fieldLine) : rows = rows' := by
  have hfields : ∀ {rows : List (String × List String)}, rows.map Prod.fst = labels →
      ∀ f ∈ fieldsOf rows, '=' ∉ f.1.toList :=
    fun hrows f hf => hequals _ (hrows ▸ label_mem_of_mem_fieldsOf hf)
  exact (fieldsOf_inj (hrows.trans hrows'.symm) (hrows ▸ hnodup)).1
    ((map_fieldLine_inj (hfields hrows) (hfields hrows')).1 h)

/-- No line of a section is blank, if its title is not. -/
theorem blank_not_mem_section {title : String} (htitle : title ≠ "")
    (fs : List (String × String)) : "" ∉ title :: fs.map fieldLine := by
  rw [List.mem_cons, not_or, List.mem_map]
  refine ⟨htitle.symm, ?_⟩
  rintro ⟨f, -, hf⟩
  have hequals := Config.equals_mem_line f.1 f.2
  rw [← fieldLine_eq_line, hf] at hequals
  exact absurd hequals (by decide)

end Ini

/-! ## What the sections show -/

/-- The table of an interface tells what the interface shows. -/
theorem Interface.Shown.rows_injective : Function.Injective rows := by
  intro s s' h
  simp only [rows, List.cons.injEq, Prod.mk.injEq, true_and, and_true, toList_option_inj,
    (Option.map_injective repr_uint16_injective).eq_iff,
    (Option.map_injective repr_uint32_injective).eq_iff] at h
  cases s
  cases s'
  simpa only [mk.injEq] using h

/-- The table of a peer tells what the peer shows. -/
theorem Peer.Shown.rows_injective : Function.Injective rows := by
  intro s s' h
  simp only [rows, List.cons.injEq, Prod.mk.injEq, true_and, and_true, toList_option_inj,
    (Option.map_injective endpoint_injective).eq_iff,
    (Option.map_injective repr_uint16_injective).eq_iff] at h
  cases s
  cases s'
  simpa only [mk.injEq] using h

/-! ## Reading a file back -/

/-- The lines of an interface section. -/
def Interface.Shown.lines (s : Interface.Shown) : List String :=
  "[Interface]" :: (fieldsOf s.rows).map fieldLine

/-- The lines of a peer section. -/
def Peer.Shown.lines (s : Peer.Shown) : List String :=
  "[Peer]" :: (fieldsOf s.rows).map fieldLine

/-- The section of an interface is that of what it shows. -/
theorem Interface.lines_eq_shown (i : Interface) : i.lines = i.shown.lines := by
  rw [lines_eq, fields, Shown.lines]

/-- The section of a peer is that of what it shows. -/
theorem Peer.lines_eq_shown (p : Peer) : p.lines = p.shown.lines := by
  rw [lines_eq, fields, Shown.lines]

/-- The section of an interface tells what the interface shows. -/
theorem Interface.Shown.lines_injective : Function.Injective lines := fun s s' h =>
  rows_injective (rows_eq_of_lines Interface.labels (by decide) (by decide) s.map_fst_rows
    s'.map_fst_rows (List.cons.inj h).2)

/-- The section of a peer tells what the peer shows. -/
theorem Peer.Shown.lines_injective : Function.Injective lines := fun s s' h =>
  rows_injective (rows_eq_of_lines Peer.labels (by decide) (by decide) s.map_fst_rows
    s'.map_fst_rows (List.cons.inj h).2)

namespace Config

/-- The sections of a file, as lines. -/
def Shown.sections (s : Shown) : List (List String) :=
  s.interface.lines :: s.peers.map Peer.Shown.lines

/-- The sections of a file tell what the file shows. -/
theorem Shown.sections_injective : Function.Injective sections := by
  intro s s' h
  obtain ⟨hinterface, hpeers⟩ := List.cons.inj h
  cases s
  cases s'
  rw [mk.injEq]
  exact ⟨Interface.Shown.lines_injective hinterface,
    List.map_injective_iff.2 Peer.Shown.lines_injective hpeers⟩

/-- The lines of a configuration are its sections with blank lines between them. -/
theorem lines_eq_intercalate (c : Config) : c.lines = [""].intercalate c.shown.sections := by
  have hpeers : ∀ (first : List String) (ps : List Peer),
      first ++ ps.flatMap (fun p => "" :: p.lines) =
        [""].intercalate (first :: (ps.map Peer.shown).map Peer.Shown.lines) := by
    -- each peer in turn takes the place of the first section
    intro first ps
    induction ps generalizing first with
    | nil => simp
    | cons p ps ih =>
      rw [List.map_cons, List.map_cons, List.intercalate_cons_cons, ← ih, List.flatMap_cons,
        Peer.lines_eq_shown]
      simp
  rw [lines, hpeers, Interface.lines_eq_shown]
  rfl

/-- The lines of a configuration tell what it shows: the blank ones stand between its sections. -/
theorem splitOn_lines (c : Config) : c.lines.splitOn "" = c.shown.sections := by
  rw [lines_eq_intercalate]
  refine List.splitOn_intercalate "" ?_ (List.cons_ne_nil _ _)
  rw [Shown.sections, List.forall_mem_cons, List.forall_mem_map]
  exact ⟨blank_not_mem_section (by decide) _,
    fun _ _ => blank_not_mem_section (by decide) _⟩

/-- A file without line breaks in its texts is read back as its lines. -/
theorem fileLines_ini {c : Config} (h : ∀ v ∈ c.texts, '\n' ∉ v.toList) :
    fileLines c.ini = c.lines :=
  fileLines_of_terminated c.toList_ini
    (c.newline_not_mem_lines_iff.2 (c.newline_not_mem_fields_iff.2 h))

/-- Two configurations have one file just when they show the same: blanks around values, blank
entries and the name of the network do not show, and all else that goes into a file does, whatever
the values look like. Line breaks are excluded inside the trimmed texts only. -/
theorem ini_eq_iff_shown_eq {c c' : Config} (h : ∀ v ∈ c.texts, '\n' ∉ v.toList)
    (h' : ∀ v ∈ c'.texts, '\n' ∉ v.toList) : c.ini = c'.ini ↔ c.shown = c'.shown := by
  constructor
  · intro heq
    have hlines : c.lines = c'.lines := by
      rw [← fileLines_ini h, heq, fileLines_ini h']
    refine Shown.sections_injective ?_
    rw [← splitOn_lines, hlines, splitOn_lines]
  · intro heq
    rw [← String.toList_inj, toList_ini, toList_ini, lines_eq_intercalate, heq,
      ← lines_eq_intercalate]

/-- A configuration with blanks around its values, blank entries, a command that looks like a title
and a comment, and a host that is an IPv6 address. -/
def paddedConfig : Config where
  network := "lab"
  interface :=
    { name := " a = b ", table := some "\t", dns := [" 1.1.1.1", "", "8.8.8.8\n"],
      postUp := ["  echo [Peer] # x = y ", "  "] }
  peers := [{ name := "a", endpoint := some ⟨"::1", 51820⟩, persistentKeepalive := some 25 },
    { name := "b", allowedIps := [" ", "10.0.0.2 "] }]

/-- Another configuration that shows what `paddedConfig` shows: the servers are in one entry, a key
is blank instead of absent, and the brackets stand in the host of the endpoint. -/
def tidyConfig : Config where
  network := "home"
  interface :=
    { name := "a = b", dns := ["1.1.1.1,8.8.8.8"], postUp := ["echo [Peer] # x = y"] }
  peers :=
    [{ name := "a\n", endpoint := some ⟨"[::1]", 51820⟩, publicKey := some " ",
       persistentKeepalive := some 25 },
      { name := "b", allowedIps := ["10.0.0.2"] }]

/-- The two have one file, which shows the servers, the commands and the addresses. With the peers
in the other order, or without the commands, there is another file. -/
theorem ini_eq_iff_shown_eq_paddedConfig :
    (∀ v ∈ paddedConfig.texts, '\n' ∉ v.toList) ∧ (∀ v ∈ tidyConfig.texts, '\n' ∉ v.toList) ∧
      paddedConfig.ini = tidyConfig.ini ∧
        paddedConfig.ini = "[Interface]\n# Name = a = b\nDNS = 1.1.1.1,8.8.8.8\n" ++
          "PostUp = echo [Peer] # x = y\n\n[Peer]\n# Name = a\nEndpoint = [::1]:51820\n" ++
            "PersistentKeepalive = 25\n\n[Peer]\n# Name = b\nAllowedIPs = 10.0.0.2\n" ∧
        paddedConfig.ini ≠ { tidyConfig with peers := tidyConfig.peers.reverse }.ini ∧
          paddedConfig.ini ≠
            { tidyConfig with interface := { tidyConfig.interface with postUp := [] } }.ini := by
  have hpadded : ∀ v ∈ paddedConfig.texts, '\n' ∉ v.toList := by decide
  have htidy : ∀ v ∈ tidyConfig.texts, '\n' ∉ v.toList := by decide
  have hreverse : ∀ v ∈ { tidyConfig with peers := tidyConfig.peers.reverse : Config }.texts,
      '\n' ∉ v.toList := by decide
  have hsilent : ∀ v ∈ { tidyConfig with
      interface := { tidyConfig.interface with postUp := [] } : Config }.texts,
      '\n' ∉ v.toList := by decide
  refine ⟨hpadded, htidy, (ini_eq_iff_shown_eq hpadded htidy).2 (by decide), by decide +kernel,
    fun heq => ?_, fun heq => ?_⟩
  · exact absurd ((ini_eq_iff_shown_eq hpadded hreverse).1 heq) (by decide)
  · exact absurd ((ini_eq_iff_shown_eq hpadded hsilent).1 heq) (by decide)

end Config

end TunnelMesh
