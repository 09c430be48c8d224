import Mathlib
import TunnelMesh.Mesh.Resolve
import TunnelMesh.Proofs.Text.Trim

/-!
# Settings taken over from the defaults

Filling in the defaults once more changes nothing (`Host.withDefaults_withDefaults`,
`Topology.withDefaultSubnet_withDefaultSubnet`): a setting that was taken over is no longer open,
and one that was not taken over is refused again.
-/

namespace TunnelMesh

open Text

/-! ## Texts and lists -/

/-- A setting is unset just when it is left open. -/
theorem isUnset_iff {o : Option String} : isUnset o = true ↔ IsOpen o := by
  rw [isOpen_iff, isUnset, Option.isNone_iff_eq_none]

/-- A setting that is left open is taken from the defaults, if it is not left open there, too. -/
theorem orDefault_eq (own default_ : Option String) : orDefault own default_ =
    if IsOpen own ∧ ¬ IsOpen default_ then default_ else own := by
  have hcondition : (isUnset own && !isUnset default_) = true ↔
      IsOpen own ∧ ¬ IsOpen default_ := by
    rw [Bool.and_eq_true, Bool.not_eq_true', ← Bool.not_eq_true, isUnset_iff, isUnset_iff]
  rw [orDefault]
  exact if_congr hcondition rfl rfl

/-- What is shown of a setting that the defaults stand in for. -/
theorem shown_orDefault (own default_ : Option String) :
    shown (orDefault own default_) =
      shown (if IsOpen own then default_ else own) := by
  rw [orDefault_eq]
  by_cases hown : IsOpen own
  · by_cases hdefault : IsOpen default_
    · rw [if_neg fun h => h.2 hdefault, if_pos hown, hown.shown_eq, hdefault.shown_eq]
    · rw [if_pos ⟨hown, hdefault⟩, if_pos hown]
  · rw [if_neg fun h => hown h.1, if_neg hown]

/-- A setting is left open just when it is left open twice. -/
theorem isOpen_orDefault {own default_ : Option String} :
    IsOpen (orDefault own default_) ↔ IsOpen own ∧ IsOpen default_ := by
  rw [isOpen_iff, nonBlank_eq_shown, shown_orDefault, ← nonBlank_eq_shown,
    ← isOpen_iff]
  split
  · next hown => exact (and_iff_right hown).symm
  · next hown => exact iff_of_false hown fun h => hown h.1

/-- Blanks around a setting do not tell whether it is unset. -/
@[simp] theorem isUnset_map_trim (o : Option String) : isUnset (o.map trim) = isUnset o := by
  rw [isUnset, nonBlank_map_trim, isUnset]

/-- A default that was taken over is kept. -/
@[simp] theorem orDefault_orDefault (own default_ : Option String) :
    orDefault (orDefault own default_) default_ = orDefault own default_ := by
  rw [orDefault, orDefault]
  cases h : isUnset own <;> cases h' : isUnset default_ <;> simp [h, h']

/-- A list that was taken over is kept. -/
@[simp] theorem orDefaultList_orDefaultList (own default_ : List String) :
    orDefaultList (orDefaultList own default_) default_ = orDefaultList own default_ := by
  rw [orDefaultList, orDefaultList]
  split
  · split <;> rfl
  · rfl

/-- Trimming a setting that the defaults have been filled into leaves nothing more to fill in. -/
theorem orDefault_map_trim {own default_ : Option String} (h : orDefault own default_ = own) :
    orDefault (own.map trim) default_ = own.map trim := by
  rw [orDefault, isUnset_map_trim]
  rw [orDefault] at h
  split
  · next hopen =>
    rw [if_pos hopen] at h
    subst h
    simp at hopen
  · rfl

/-- A setting has no blanks at its ends after the defaults have been filled in, unless it was taken
over with such blanks. -/
theorem map_trim_orDefault_map_trim {own default_ : Option String} :
    (orDefault (own.map trim) default_).map trim = orDefault (own.map trim) default_ ↔
      (IsOpen own → ¬ IsOpen default_ → default_.map trim = default_) := by
  rw [orDefault, isUnset_map_trim, ← isUnset_iff, ← isUnset_iff]
  cases hown : isUnset own <;> cases hdefault : isUnset default_ <;> simp

/-! ## Topologies and hosts -/

/-- Filling in the subnet of the defaults once more changes nothing. -/
@[simp] theorem Topology.withDefaultSubnet_withDefaultSubnet (t : Topology) (d : Defaults) :
    (t.withDefaultSubnet d).withDefaultSubnet d = t.withDefaultSubnet d := by
  simp [withDefaultSubnet]

/-- Filling in the defaults once more changes nothing. -/
@[simp] theorem Host.withDefaults_withDefaults (d : Defaults) (h : Host) :
    (h.withDefaults d).withDefaults d = h.withDefaults d := by
  cases hignore : h.ignoreDefault <;> simp [withDefaults, hignore, Option.or_assoc]

/-- The defaults are filled into the table of a host apart from all else. -/
theorem Host.withDefaults_table {h : Host} (hignore : h.ignoreDefault = false) (d : Defaults)
    (table : Option String) : { h with table := table }.withDefaults d =
      { h.withDefaults d with table := orDefault table d.table } := by
  simp [withDefaults, hignore]

/-- Defaults have no private key to give. -/
@[simp] theorem Host.privateKey_withDefaults (d : Defaults) (h : Host) :
    (h.withDefaults d).privateKey = h.privateKey := by
  rw [withDefaults]
  split <;> rfl

@[simp] theorem Host.publicKey_withDefaults (d : Defaults) (h : Host) :
    (h.withDefaults d).publicKey = h.publicKey := by
  rw [withDefaults]
  split <;> rfl

/-- Defaults do not count where keys are looked at. -/
@[simp] theorem Host.rekeyReason_withDefaults (draw : Draw) (d : Defaults) (h : Host) :
    (h.withDefaults d).rekeyReason draw = h.rekeyReason draw := by
  rw [withDefaults]
  split <;> rfl

end TunnelMesh
