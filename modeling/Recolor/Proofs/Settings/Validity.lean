import Recolor.Proofs.Attempt
import Recolor.Settings.Override
import Recolor.Workspace

namespace Recolor

theorem Canvas.exists_compose_iff (c : Canvas) (m : Mosaic) :
    (∃ text, c.compose m = .ok text) ↔ c.baseScale ≠ 0 := by
  unfold compose scale
  by_cases h : c.baseScale = 0
  · rw [if_pos h]
    exact ⟨nofun, fun positive => absurd h positive⟩
  · rw [if_neg h]
    exact ⟨fun _ => h, fun _ => ⟨_, rfl⟩⟩

theorem Canvas.forall_compose_iff (c : Canvas) :
    (∀ m, ∃ text, c.compose m = .ok text) ↔ c.baseScale ≠ 0 := by
  simp only [exists_compose_iff]
  exact ⟨fun composes => composes ⟨[], 0, 0, .ofInt 0, .ofInt 0⟩, fun positive _ => positive⟩

namespace Settings

variable {s : Settings}

theorem textureFaults_eq_nil_iff : s.textureFaults = [] ↔ s.tiling.texture ≠ "" := by
  simp [textureFaults]

theorem colorFaults_eq_nil_iff : s.colorFaults = [] ↔ ∃ o, s.options = .ok o := by
  unfold colorFaults options
  cases Color.optionalOfHex s.tiling.ignoreColor with
  | error cause => exact ⟨nofun, nofun⟩
  | ok ignored => exact ⟨fun _ => ⟨_, rfl⟩, fun _ => rfl⟩

theorem scaleFaults_eq_nil_iff : s.scaleFaults = [] ↔ s.canvas.baseScale ≠ 0 := by
  simp [scaleFaults]

theorem faults_eq_nil_iff :
    s.faults = [] ↔
      s.tiling.texture ≠ "" ∧ (∃ o, s.options = .ok o) ∧ s.canvas.baseScale ≠ 0 := by
  rw [faults, List.append_eq_nil_iff, List.append_eq_nil_iff, textureFaults_eq_nil_iff,
    colorFaults_eq_nil_iff, scaleFaults_eq_nil_iff, and_assoc]

theorem options_of_valid (valid : s.faults = []) : ∃ o, s.options = .ok o :=
  (faults_eq_nil_iff.mp valid).2.1

theorem compose_of_valid (valid : s.faults = []) (m : Mosaic) :
    ∃ text, s.canvas.compose m = .ok text :=
  (s.canvas.exists_compose_iff m).mpr (faults_eq_nil_iff.mp valid).2.2

theorem isValid_iff_faults : s.isValid = true ↔ s.faults = [] := List.isEmpty_iff

theorem check_eq_ok_iff : s.check = .ok () ↔ s.isValid = true := by
  unfold check
  split
  · next valid => exact ⟨fun _ => valid, fun _ => rfl⟩
  · next invalid => exact ⟨nofun, fun valid => absurd valid invalid⟩

theorem isValid_default : default.isValid = true := by decide

theorem isValid_anchored (s : Settings) (file : Path) : (s.anchored file).isValid = s.isValid := by
  unfold anchored
  split <;> rfl

theorem isValid_of_ofFile {file : Path} {bytes : Option ByteArray}
    (h : ofFile file bytes = .ok s) : s.isValid = true := by
  unfold ofFile at h
  split at h
  · cases h
  · split at h
    · cases h
    · obtain ⟨⟨⟩, checked, rfl⟩ := Attempt.map_eq_ok_iff.mp h
      rw [isValid_anchored]
      exact check_eq_ok_iff.mp checked

theorem isValid_of_merge {o : Override} (h : (s.merge o).2 = .ok ()) :
    (s.merge o).1.isValid = true := check_eq_ok_iff.mp h

end Settings

theorem Workspace.isValid_of_settings {w : Workspace} {named : Option Path} {s : Settings}
    (h : w.settings named = .ok s) : s.isValid = true := by
  unfold settings at h
  split at h
  · exact Settings.isValid_of_ofFile h
  · cases h
    exact Settings.isValid_default

end Recolor
