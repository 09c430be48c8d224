import Mathlib
import TunnelMesh.Mesh.Compile
import TunnelMesh.Proofs.Except

/-!
# Names of hosts

The check of names lets a topology pass just when no name is empty and all differ
(`checkAllNames_eq_ok`), group by group with the names seen so far. Otherwise it stops at the first
host whose name is empty or taken (`checkAllNames_eq_error`).
-/

namespace TunnelMesh

/-- The name of a host without the blanks around it. -/
def Host.trimmedName (h : Host) : String :=
  Text.trim h.server.hostname

/-! ## The check -/

/-- Names that may follow those seen before. -/
def NamesFit (seen names : List String) : Prop :=
  "" ∉ names ∧ names.Nodup ∧ List.Disjoint names seen

instance (seen names : List String) : Decidable (NamesFit seen names) :=
  inferInstanceAs (Decidable ("" ∉ names ∧ names.Nodup ∧ ∀ n ∈ names, n ∈ seen → False))

theorem namesFit_nil (seen : List String) : NamesFit seen [] :=
  ⟨List.not_mem_nil, List.nodup_nil, List.disjoint_nil_left seen⟩

/-- Names are checked from the first one on, each against those before it. -/
theorem namesFit_cons {seen names : List String} {n : String} :
    NamesFit seen (n :: names) ↔ n ≠ "" ∧ n ∉ seen ∧ NamesFit (n :: seen) names := by
  simp only [NamesFit, List.mem_cons, not_or, List.nodup_cons, List.disjoint_cons_left,
    List.disjoint_cons_right, ne_eq, eq_comm (a := n)]
  tauto

/-- Names behind others are checked against those as well. -/
theorem namesFit_append {seen front back : List String} :
    NamesFit seen (front ++ back) ↔
      NamesFit seen front ∧ NamesFit (front.reverse ++ seen) back := by
  induction front generalizing seen with
  | nil => simp [namesFit_nil]
  | cons n front ih =>
    rw [List.cons_append, namesFit_cons, namesFit_cons, ih, List.reverse_cons, List.append_assoc,
      List.singleton_append]
    tauto

/-- The check of one group's names adds them to those seen. -/
theorem checkNames_eq_ok {group : String} {seen out : List String} {hs : List Host} :
    checkNames group seen hs = .ok out ↔
      NamesFit seen (hs.map Host.hostname) ∧ out = (hs.map Host.hostname).reverse ++ seen := by
  induction hs generalizing seen with
  | nil => simp [checkNames, namesFit_nil, eq_comm]
  | cons h hs ih =>
    rw [checkNames, List.map_cons, namesFit_cons]
    by_cases hempty : h.hostname = ""
    · simp [hempty]
    · by_cases hseen : h.hostname ∈ seen
      · simp [hempty, hseen]
      · simp [hempty, hseen, ih]

/-- The check of all groups' names adds them to those seen. -/
theorem checkAllNames_eq_ok {seen out : List String} {gs : List Group} :
    checkAllNames seen gs = .ok out ↔
      NamesFit seen ((gs.flatMap (·.hosts)).map Host.hostname) ∧
        out = ((gs.flatMap (·.hosts)).map Host.hostname).reverse ++ seen := by
  induction gs generalizing seen with
  | nil => simp [checkAllNames, namesFit_nil, eq_comm]
  | cons g gs ih =>
    rw [List.flatMap_cons, List.map_append, namesFit_append, checkAllNames, Except.bind_eq_ok]
    constructor
    · rintro ⟨mid, hmid, hrest⟩
      obtain ⟨hfit, rfl⟩ := checkNames_eq_ok.1 hmid
      obtain ⟨hfits, rfl⟩ := ih.1 hrest
      exact ⟨⟨hfit, hfits⟩, by rw [List.reverse_append, List.append_assoc]⟩
    · rintro ⟨⟨hfit, hfits⟩, rfl⟩
      exact ⟨_, checkNames_eq_ok.2 ⟨hfit, rfl⟩,
        ih.2 ⟨hfits, by rw [List.reverse_append, List.append_assoc]⟩⟩

/-! ## The first name that does not fit -/

/-- Of hosts, given by the names of their groups and their own, the first one whose name is empty or
taken, by a host before it or by one seen earlier. -/
def FirstMisnamed (seen : List String) (names : List (String × String)) (group name : String) :
    Prop :=
  ∃ front back, names = front ++ (group, name) :: back ∧ NamesFit seen (front.map Prod.snd) ∧
    (name = "" ∨ name ∈ front.map Prod.snd ∨ name ∈ seen)

/-- How a name that does not fit is reported. -/
def misnamedError (group name : String) : MeshError :=
  if name = "" then .missingHostname group else .duplicateHostname name

/-- A missing name is reported of an empty one, with its group. -/
theorem missingHostname_eq_misnamedError {g group name : String} :
    .missingHostname g = misnamedError group name ↔ name = "" ∧ g = group := by
  by_cases hname : name = "" <;> simp [misnamedError, hname]

/-- A name is reported as taken if it is not empty. -/
theorem duplicateHostname_eq_misnamedError {n group name : String} :
    .duplicateHostname n = misnamedError group name ↔ name ≠ "" ∧ n = name := by
  by_cases hname : name = "" <;> simp [misnamedError, hname]

theorem missingSubnet_ne_misnamedError (group name : String) :
    .missingSubnet ≠ misnamedError group name := by
  by_cases hname : name = "" <;> simp [misnamedError, hname]

theorem invalidSubnet_ne_misnamedError (defect : SubnetDefect) (group name : String) :
    .invalidSubnet defect ≠ misnamedError group name := by
  by_cases hname : name = "" <;> simp [misnamedError, hname]

section

variable {seen : List String} {group name g n : String} {names : List (String × String)}

theorem not_firstMisnamed_nil : ¬ FirstMisnamed seen [] group name := by
  rintro ⟨front, back, h, -⟩
  cases front <;> cases h

/-- The first name at fault is the one in front, or the first behind it if that one fits. -/
theorem firstMisnamed_cons : FirstMisnamed seen ((g, n) :: names) group name ↔
    (g = group ∧ n = name ∧ (n = "" ∨ n ∈ seen)) ∨
      n ≠ "" ∧ n ∉ seen ∧ FirstMisnamed (n :: seen) names group name := by
  constructor
  · rintro ⟨front, back, h, hfit, hname⟩
    cases front with
    | nil =>
      cases h
      exact .inl ⟨rfl, rfl, by simpa using hname⟩
    | cons pair front =>
      cases h
      rw [List.map_cons, namesFit_cons] at hfit
      refine .inr ⟨hfit.1, hfit.2.1, front, back, rfl, hfit.2.2, ?_⟩
      rw [List.map_cons, List.mem_cons] at hname
      rw [List.mem_cons]
      tauto
  · rintro (⟨rfl, rfl, hname⟩ | ⟨hempty, hseen, front, back, rfl, hfit, hname⟩)
    · exact ⟨[], names, rfl, namesFit_nil seen, by simpa using hname⟩
    · refine ⟨(g, n) :: front, back, rfl, ?_, ?_⟩
      · rw [List.map_cons, namesFit_cons]
        exact ⟨hempty, hseen, hfit⟩
      · rw [List.mem_cons] at hname
        rw [List.map_cons, List.mem_cons]
        tauto

/-- The first misnamed host stands in the front part, or that part fits and it stands behind. -/
theorem firstMisnamed_append {front back : List (String × String)} :
    FirstMisnamed seen (front ++ back) group name ↔ FirstMisnamed seen front group name ∨
      NamesFit seen (front.map Prod.snd) ∧
        FirstMisnamed ((front.map Prod.snd).reverse ++ seen) back group name := by
  induction front generalizing seen with
  | nil => simp [not_firstMisnamed_nil, namesFit_nil]
  | cons pair front ih =>
    rw [List.cons_append, firstMisnamed_cons, firstMisnamed_cons, ih, List.map_cons, namesFit_cons,
      List.reverse_cons, List.append_assoc, List.singleton_append]
    tauto

/-- Names fit just when there is no first one that does not. -/
theorem namesFit_iff_forall_not_firstMisnamed : NamesFit seen (names.map Prod.snd) ↔
    ∀ group name, ¬ FirstMisnamed seen names group name := by
  induction names generalizing seen with
  | nil => simp [namesFit_nil, not_firstMisnamed_nil]
  | cons pair names ih =>
    obtain ⟨g, n⟩ := pair
    simp only [List.map_cons, namesFit_cons, ih, firstMisnamed_cons, not_or, not_and]
    constructor
    · rintro ⟨hempty, hseen, hrest⟩ group name
      exact ⟨fun _ _ => ⟨hempty, hseen⟩, fun _ _ => hrest group name⟩
    · intro h
      obtain ⟨hempty, hseen⟩ := (h g n).1 rfl rfl
      exact ⟨hempty, hseen, fun group name => (h group name).2 hempty hseen⟩

/-- The check of one group's names stops at the first that does not fit. -/
theorem checkNames_eq_error {hs : List Host} {e : MeshError} :
    checkNames group seen hs = .error e ↔ ∃ g n,
      FirstMisnamed seen (hs.map fun h => (group, h.hostname)) g n ∧ e = misnamedError g n := by
  induction hs generalizing seen with
  | nil => simp [checkNames, not_firstMisnamed_nil]
  | cons h hs ih =>
    rw [checkNames, List.map_cons]
    simp only [firstMisnamed_cons]
    by_cases hempty : h.hostname = ""
    · simp [hempty, misnamedError, eq_comm]
    · by_cases hseen : h.hostname ∈ seen
      · simp [hempty, hseen, misnamedError, eq_comm]
      · simp [hempty, hseen, ih]

/-- The check of all groups' names stops at the first that does not fit. -/
theorem checkAllNames_eq_error {gs : List Group} {e : MeshError} :
    checkAllNames seen gs = .error e ↔ ∃ g n,
      FirstMisnamed seen (gs.flatMap fun g => g.hosts.map fun h => (g.name, h.hostname)) g n ∧
        e = misnamedError g n := by
  induction gs generalizing seen with
  | nil => simp [checkAllNames, not_firstMisnamed_nil]
  | cons group gs ih =>
    have hnames : (group.hosts.map fun h => (group.name, h.hostname)).map Prod.snd =
        group.hosts.map Host.hostname := List.map_map
    rw [List.flatMap_cons, checkAllNames, Except.bind_eq_error]
    simp only [firstMisnamed_append, checkNames_eq_error, checkNames_eq_ok, hnames]
    constructor
    · rintro (⟨g, n, hmisnamed, rfl⟩ | ⟨_, ⟨hfit, rfl⟩, hrest⟩)
      · exact ⟨g, n, .inl hmisnamed, rfl⟩
      · obtain ⟨g, n, hmisnamed, rfl⟩ := ih.1 hrest
        exact ⟨g, n, .inr ⟨hfit, hmisnamed⟩, rfl⟩
    · rintro ⟨g, n, hmisnamed | ⟨hfit, hmisnamed⟩, rfl⟩
      · exact .inl ⟨g, n, hmisnamed, rfl⟩
      · exact .inr ⟨_, ⟨hfit, rfl⟩, ih.2 ⟨g, n, hmisnamed, rfl⟩⟩

end

end TunnelMesh
