import Mathlib
import TunnelMesh.Proofs.Json.Rewriting
import TunnelMesh.Proofs.Topology.Document

/-!
# Equivalent documents

How documents of topologies, defaults and requests may be written otherwise, at any depth: one
rewriting for each kind of record, put together from those of its members as the schemas are. Older
spellings of keys and visibilities are among them. A document that is accepted is still accepted
after any number of rewritings, with the same value (`documents_rewritten`).
-/

namespace TunnelMesh

open Json

/-! ## Rewriting the records -/

/-- A visibility is given by another one of its names. -/
def Visibility.Rewrite : Draft → Draft → Prop :=
  Names.Rewrite Visibility.names

/-- A machine is written otherwise. -/
def Server.Rewrite : Draft → Draft → Prop :=
  Server.schema.Rewrite []

/-- A host is written otherwise. -/
def Host.Rewrite : Draft → Draft → Prop :=
  Host.schema.Rewrite [("server", Server.Rewrite)]

/-- A group is written otherwise. -/
def Group.Rewrite : Draft → Draft → Prop :=
  Group.schema.Rewrite [("visibility", Visibility.Rewrite), ("hosts", Entries.Rewrite Host.Rewrite)]

/-- A topology is written otherwise. -/
def Topology.Rewrite : Draft → Draft → Prop :=
  Topology.schema.Rewrite [("groups", Entries.Rewrite Group.Rewrite)]

/-- Defaults are written otherwise. -/
def Defaults.Rewrite : Draft → Draft → Prop :=
  Defaults.schema.Rewrite []

/-- A request is written otherwise. -/
def Request.Rewrite : Draft → Draft → Prop :=
  Request.schema.Rewrite [("properties", Defaults.Rewrite), ("struct", Topology.Rewrite)]

/-! ## No two fields set the same part -/

theorem Server.unordered : Server.schema.Unordered :=
  Schema.unordered_of_sets (by decide) (by repeat' constructor) (by simp [Setter.Apart])

theorem Host.unordered : Host.schema.Unordered :=
  Schema.unordered_of_sets (by decide) (by repeat' constructor) (by simp [Setter.Apart])

theorem Group.unordered : Group.schema.Unordered :=
  Schema.unordered_of_sets (by decide) (by repeat' constructor) (by simp [Setter.Apart])

theorem Topology.unordered : Topology.schema.Unordered :=
  Schema.unordered_of_sets (by decide) (by repeat' constructor) (by simp [Setter.Apart])

theorem Defaults.unordered : Defaults.schema.Unordered :=
  Schema.unordered_of_sets (by decide) (by repeat' constructor) (by simp [Setter.Apart])

theorem Request.unordered : Request.schema.Unordered :=
  Schema.unordered_of_sets (by decide) (by repeat' constructor) (by simp [Setter.Apart])

/-! ## What is read stays the same -/

/-- A visibility is the same under all its names. -/
theorem Visibility.preserves_rewrite : Visibility.codec.Preserves Visibility.Rewrite :=
  Codec.preserves_named

/-- A machine is the same however it is written. -/
theorem Server.preserves_rewrite : Server.schema.codec.Preserves Server.Rewrite :=
  Schema.preserves Server.unordered fun _ => nofun

/-- A host is the same however it and its machine are written. -/
theorem Host.preserves_rewrite : Host.schema.codec.Preserves Host.Rewrite :=
  Schema.preserves Host.unordered <| List.forall_mem_singleton.2
    ⟨0, _, rfl, rfl, Field.preserves_always Server.preserves_rewrite⟩

/-- A group is the same however it, its visibility and its hosts are written. -/
theorem Group.preserves_rewrite : Group.schema.codec.Preserves Group.Rewrite :=
  Schema.preserves Group.unordered <| List.forall_mem_cons.2
    ⟨⟨1, _, rfl, rfl, Field.preserves_always Visibility.preserves_rewrite⟩,
      List.forall_mem_singleton.2
        ⟨2, _, rfl, rfl, Field.preserves_always Host.preserves_rewrite.list⟩⟩

/-- A topology is the same however it and its groups are written. -/
theorem Topology.preserves_rewrite : Topology.schema.codec.Preserves Topology.Rewrite :=
  Schema.preserves Topology.unordered <| List.forall_mem_singleton.2
    ⟨3, _, rfl, rfl, Field.preserves_always Group.preserves_rewrite.list⟩

/-- Defaults are the same however they are written. -/
theorem Defaults.preserves_rewrite : Defaults.schema.codec.Preserves Defaults.Rewrite :=
  Schema.preserves Defaults.unordered fun _ => nofun

/-- A request is the same however it, its defaults and its topology are written. -/
theorem Request.preserves_rewrite : Request.schema.codec.Preserves Request.Rewrite :=
  Schema.preserves Request.unordered <| List.forall_mem_cons.2
    ⟨⟨0, _, rfl, rfl, Field.preserves_always Defaults.preserves_rewrite⟩,
      List.forall_mem_singleton.2
        ⟨1, _, rfl, rfl, Field.preserves_always Topology.preserves_rewrite⟩⟩

/-- A document that is accepted is accepted with the same value however it is rewritten. -/
theorem documents_rewritten :
    (∀ text text' (t : Topology), Rewritten Topology.Rewrite text text' →
      Topology.ofJson text = .ok t → Topology.ofJson text' = .ok t) ∧
    (∀ text text' (d : Defaults), Rewritten Defaults.Rewrite text text' →
      Defaults.ofJson text = .ok d → Defaults.ofJson text' = .ok d) ∧
    (∀ text text' (r : Request), Rewritten Request.Rewrite text text' →
      Request.ofJson text = .ok r → Request.ofJson text' = .ok r) := by
  have hreads : ∀ {α : Type} {s : Schema α} {R : Draft → Draft → Prop}, s.codec.Preserves R →
      ∀ text text' a, Rewritten R text text' → readDocument s text = .ok a →
        readDocument s text' = .ok a := by
    intro α s R hR text text' a hrewritten hread
    exact readDocument_eq_ok.2 (hR.parse hrewritten (readDocument_eq_ok.1 hread))
  exact ⟨hreads Topology.preserves_rewrite, hreads Defaults.preserves_rewrite,
    hreads Request.preserves_rewrite⟩

/-! ## An older document -/

/-- A topology of one host. -/
def labTopology : Topology where
  name := "lab"
  groups := [{ visibility := .openNat, hosts := [{ server := { hostname := "a1" } }] }]

/-- A document of it with older spellings, a remark, and the machine as a list. -/
def labDocument : Value :=
  .record [
    ("remark", .list [.null]),
    ("local_area_networks", .list [.record [
      ("network_type", .text "OPEN_NAT"),
      ("network_nodes", .list [.record [
        ("server_node", .list [.text "a1", .null, .null])]])]]),
    ("name", .text "lab")]

/-- The machine is written as a list under an older key, and what is the default is left out. -/
theorem labHost_rewrites : Relation.ReflTransGen Host.Rewrite
    (.record [(.ofText "server", .record [(.ofText "hostname", .text (.ofText "a1"))] .closed),
      (.ofText "ignore_default", .bool false)] .closed)
    (.record [(.ofText "server_node", .list [.text (.ofText "a1"), .null, .null] none)]
      .closed) := by
  have hserver : Host.schema.fields[0] ∈ Host.schema.fields := List.getElem_mem _
  have hignore : Host.schema.fields[12] ∈ Host.schema.fields := List.getElem_mem _
  have hlist : Server.Rewrite (.record [(.ofText "hostname", .text (.ofText "a1"))] .closed)
      (.list [.text (.ofText "a1"), .null, .null] none) := by
    refine .asList (.cons ?_ (.cons ?_ (.cons ?_ .nil)))
    · exact .inl ⟨_, List.mem_singleton_self _, by decide⟩
    · exact .inr ⟨List.forall_mem_singleton.2 (by decide), rfl⟩
    · exact .inr ⟨List.forall_mem_singleton.2 (by decide), rfl⟩
  refine (Schema.rewrite_member hserver List.mem_cons_self (by decide) (.single hlist) []
    [_]).trans ?_
  refine .head (@Schema.Rewrite.rename _ _ _ [] _ _ _ (.ofText "server_node") _ hserver
    (by decide) (by decide)) ?_
  exact .single (@Schema.Rewrite.drop _ _ _ [_] [] _ _ _ hignore (by decide) rfl rfl)

/-- The visibility and the hosts have older names, and the name is left out. -/
theorem labGroup_rewrites {host host' : Draft} (h : Relation.ReflTransGen Host.Rewrite host host') :
    Relation.ReflTransGen Group.Rewrite
      (.record [(.ofText "name", .text (.ofText "")),
        (.ofText "visibility", .text (.ofText "OPEN")), (.ofText "hosts", .list [host] none)]
        .closed)
      (.record [(.ofText "network_type", .text (.ofText "OPEN_NAT")),
        (.ofText "network_nodes", .list [host'] none)] .closed) := by
  have hname : Group.schema.fields[0] ∈ Group.schema.fields := List.getElem_mem _
  have hvisibility : Group.schema.fields[1] ∈ Group.schema.fields := List.getElem_mem _
  have hhosts : Group.schema.fields[2] ∈ Group.schema.fields := List.getElem_mem _
  have hopen : Visibility.Rewrite (.text (.ofText "OPEN")) (.text (.ofText "OPEN_NAT")) :=
    .text ⟨_, _, .openNat, Quoted.text_ofText _, Quoted.text_ofText _, by decide, by decide⟩
  refine .head (@Schema.Rewrite.drop _ _ _ [] _ _ _ _ hname
    (by decide) rfl rfl) ?_
  refine (Schema.rewrite_member hvisibility List.mem_cons_self
    (by decide) (.single hopen) [] [_]).trans ?_
  refine (Schema.rewrite_member hhosts (List.mem_cons_of_mem _ List.mem_cons_self)
    (by decide) (Entries.rewrite_entry h [] []) [_] []).trans ?_
  refine .head (@Schema.Rewrite.rename _ _ _ [] _ _ _ (.ofText "network_type") _ hvisibility
    (by decide) (by decide)) ?_
  exact .single (@Schema.Rewrite.rename _ _ _ [_] _ _ _ (.ofText "network_nodes") _ hhosts
    (by decide) (by decide))

/-- The groups have an older name and stand before the name, and a remark is added. -/
theorem labTopology_rewrites {group group' : Draft}
    (h : Relation.ReflTransGen Group.Rewrite group group') :
    Relation.ReflTransGen Topology.Rewrite
      (.record [(.ofText "name", .text (.ofText "lab")), (.ofText "groups", .list [group] none)]
        .closed)
      (.record [(.ofText "remark", .list [.null] none),
        (.ofText "local_area_networks", .list [group'] none),
        (.ofText "name", .text (.ofText "lab"))] .closed) := by
  have hgroups : Topology.schema.fields[3] ∈ Topology.schema.fields := List.getElem_mem _
  have hremark : Draft.IsWhole (.list [.null] none) := .list (List.forall_mem_singleton.2 .null)
  have hnew : ∀ f ∈ Topology.schema.fields, f.answersTo "remark" = false := by decide
  refine (Schema.rewrite_member hgroups List.mem_cons_self
    (by decide) (Entries.rewrite_entry h [] []) [_] []).trans ?_
  refine .head (@Schema.Rewrite.rename _ _ _ [_] _ _ _ (.ofText "local_area_networks") _ hgroups
    (by decide) (by decide)) ?_
  refine .head (@Schema.Rewrite.insert _ _ _ [] _ _ _ _ (Quoted.text_ofText _) hnew hremark) ?_
  exact .single (.reorder (.cons _ (.swap _ _ _)))

/-- Defaults that say one thing. -/
def labDefaults : Defaults where
  mtu := some 1420

/-- A document of them with a remark. -/
def labDefaultsDocument : Value :=
  .record [("mtu", .number 1420), ("remark", .null)]

/-- A remark is added to the defaults. -/
theorem labDefaults_rewrites : Relation.ReflTransGen Defaults.Rewrite
    (.record [(.ofText "mtu", .number (.ofNat 1420))] .closed)
    (.record [(.ofText "mtu", .number (.ofNat 1420)), (.ofText "remark", .null)] .closed) := by
  have hnew : ∀ f ∈ Defaults.schema.fields, f.answersTo "remark" = false := by decide
  exact .single (@Schema.Rewrite.insert _ _ _ [_] [] _ _ _ (Quoted.text_ofText _) hnew .null)

/-- A request is written as the list of its members, each of them rewritten. -/
theorem labRequest_rewrites {properties properties' topology topology' : Draft}
    (hproperties : Relation.ReflTransGen Defaults.Rewrite properties properties')
    (htopology : Relation.ReflTransGen Topology.Rewrite topology topology') :
    Relation.ReflTransGen Request.Rewrite
      (.record [(.ofText "properties", properties), (.ofText "struct", topology)] .closed)
      (.list [properties', topology'] none) := by
  have hfirst : Request.schema.fields[0] ∈ Request.schema.fields := List.getElem_mem _
  have hsecond : Request.schema.fields[1] ∈ Request.schema.fields := List.getElem_mem _
  refine (Schema.rewrite_member hfirst List.mem_cons_self
    (by decide) hproperties [] [_]).trans ?_
  refine (Schema.rewrite_member hsecond (List.mem_cons_of_mem _ List.mem_cons_self)
    (by decide) htopology [_] []).trans ?_
  refine .single (.asList (.cons ?_ (.cons ?_ .nil)))
  · exact .inl ⟨_, List.mem_cons_self, by decide⟩
  · exact .inl ⟨_, List.mem_cons_of_mem _ List.mem_cons_self, by decide⟩

/-- The older documents say what the current ones say. -/
theorem documents_rewritten_lab :
    Topology.ofJson labDocument.compact = .ok labTopology ∧
      Defaults.ofJson labDefaultsDocument.compact = .ok labDefaults ∧
        Request.ofJson (Value.list [labDefaultsDocument, labDocument]).compact =
          .ok ⟨labDefaults, labTopology⟩ := by
  have htopology := labTopology_rewrites (labGroup_rewrites labHost_rewrites)
  have hrequest := labRequest_rewrites labDefaults_rewrites htopology
  obtain ⟨htopologies, hdefaults, hrequests⟩ := documents_rewritten
  refine ⟨htopologies _ _ _ ?_ (readDocument_of_parse (Topology.lawful_codec.parse_compact _)),
    hdefaults _ _ _ ?_ (readDocument_of_parse (Defaults.lawful_codec.parse_compact _)),
    hrequests _ _ _ ?_ (readDocument_of_parse (Request.lawful_codec.parse_compact _))⟩
  · exact ⟨_, _, draft_compact (Topology.schema.codec.write labTopology), draft_compact _,
      htopology⟩
  · exact ⟨_, _, draft_compact (Defaults.schema.codec.write labDefaults), draft_compact _,
      labDefaults_rewrites⟩
  · exact ⟨_, _, draft_compact (Request.schema.codec.write ⟨labDefaults, labTopology⟩),
      draft_compact _, hrequest⟩

end TunnelMesh
