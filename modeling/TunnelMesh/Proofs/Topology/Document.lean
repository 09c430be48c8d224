import Mathlib
import TunnelMesh.Proofs.Json.Codec
import TunnelMesh.Topology.Document

/-!
# Documents are read back

Every topology, all defaults and every request are read back from their documents, compact or pretty
(`documents_readBack`). For each kind of record its members are followed in order: those that are
always written are read into the record that is built up, and those that may be left out are at that
point as the blank record has them.
-/

namespace TunnelMesh

open Json Codec Field

/-- Visibilities are read back from their current names. -/
theorem Visibility.lawful_codec : Visibility.codec.Lawful :=
  lawful_named fun v => by cases v <;> decide

/-- Machines are read back. -/
theorem Server.lawful_codec : Server.schema.codec.Lawful :=
  Schema.lawful_codec (by decide) fun _ =>
    .cons (restores_always lawful_text) <|
    .cons (restores_optional lawful_text rfl) <|
    .cons (restores_optional lawful_text rfl) .nil

/-- Hosts are read back. -/
theorem Host.lawful_codec : Host.schema.codec.Lawful :=
  Schema.lawful_codec (by decide) fun _ =>
    .cons (restores_always Server.lawful_codec) <|
    .cons (restores_optional lawful_text rfl) <|
    .cons (restores_optional lawful_text rfl) <|
    .cons (restores_optional lawful_text rfl) <|
    .cons (restores_optional lawful_uint16 rfl) <|
    .cons (restores_entries lawful_text rfl) <|
    .cons (restores_optional lawful_text rfl) <|
    .cons (restores_optional lawful_uint32 rfl) <|
    .cons (restores_entries lawful_text rfl) <|
    .cons (restores_entries lawful_text rfl) <|
    .cons (restores_entries lawful_text rfl) <|
    .cons (restores_entries lawful_text rfl) <|
    .cons (restores_always lawful_bool) .nil

/-- Groups are read back. -/
theorem Group.lawful_codec : Group.schema.codec.Lawful :=
  Schema.lawful_codec (by decide) fun _ =>
    .cons (restores_always lawful_text) <|
    .cons (restores_always Visibility.lawful_codec) <|
    .cons (restores_always Host.lawful_codec.list) .nil

/-- Topologies are read back. -/
theorem Topology.lawful_codec : Topology.schema.codec.Lawful :=
  Schema.lawful_codec (by decide) fun _ =>
    .cons (restores_always lawful_text) <|
    .cons (restores_optional lawful_text rfl) <|
    .cons (restores_optional lawful_text rfl) <|
    .cons (restores_always Group.lawful_codec.list) .nil

/-- Defaults are read back. -/
theorem Defaults.lawful_codec : Defaults.schema.codec.Lawful :=
  Schema.lawful_codec (by decide) fun _ =>
    .cons (restores_optional lawful_text rfl) <|
    .cons (restores_optional lawful_text rfl) <|
    .cons (restores_optional lawful_uint16 rfl) <|
    .cons (restores_entries lawful_text rfl) <|
    .cons (restores_optional lawful_text rfl) <|
    .cons (restores_optional lawful_uint32 rfl) <|
    .cons (restores_entries lawful_text rfl) <|
    .cons (restores_entries lawful_text rfl) <|
    .cons (restores_entries lawful_text rfl) <|
    .cons (restores_entries lawful_text rfl) <|
    .cons (restores_optional lawful_uint16 rfl) .nil

/-- Requests are read back. -/
theorem Request.lawful_codec : Request.schema.codec.Lawful :=
  Schema.lawful_codec (by decide) fun _ =>
    .cons (restores_always Defaults.lawful_codec) <|
    .cons (restores_always Topology.lawful_codec) .nil

/-- A document has a value just when its text is parsed as one. -/
theorem readDocument_eq_ok {α : Type} {s : Schema α} {text : String} {a : α} :
    readDocument s text = .ok a ↔ s.codec.parse text = .ok a := by
  rw [readDocument]
  cases s.codec.parse text <;> simp [Except.mapError]

theorem readDocument_of_parse {α : Type} {s : Schema α} {text : String} {a : α}
    (h : s.codec.parse text = .ok a) : readDocument s text = .ok a :=
  readDocument_eq_ok.2 h

/-- A topology is read back from its pretty document, as it is saved. -/
theorem Topology.ofJson_pretty (t : Topology) : Topology.ofJson (t.pretty ++ "\n") = .ok t :=
  readDocument_of_parse (Topology.lawful_codec.parse_pretty t)

/-- Documents are read back as what they were written from. -/
theorem documents_readBack :
    (∀ t : Topology,
      Topology.ofJson t.compact = .ok t ∧ Topology.ofJson (t.pretty ++ "\n") = .ok t) ∧
    (∀ d : Defaults, Defaults.ofJson d.compact = .ok d ∧
      Defaults.ofJson (Defaults.schema.codec.pretty d ++ "\n") = .ok d) ∧
    (∀ r : Request, Request.ofJson r.compact = .ok r ∧
      Request.ofJson (Request.schema.codec.pretty r ++ "\n") = .ok r) := by
  have hboth : ∀ {α : Type} {s : Schema α}, s.codec.Lawful → ∀ a,
      readDocument s (s.codec.compact a) = .ok a ∧
        readDocument s (s.codec.pretty a ++ "\n") = .ok a := fun hs a =>
    ⟨readDocument_of_parse (hs.parse_compact a), readDocument_of_parse (hs.parse_pretty a)⟩
  exact ⟨hboth Topology.lawful_codec, hboth Defaults.lawful_codec, hboth Request.lawful_codec⟩

end TunnelMesh
