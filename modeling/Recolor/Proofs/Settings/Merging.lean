import Mathlib.Data.List.Induction
import Recolor.Settings.Override

namespace Recolor

namespace Override

variable {α : Type}

def andThen (first second : Override) : Override where
  texture := second.texture.or first.texture
  handX := second.handX.or first.handX
  handY := second.handY.or first.handY
  ignoreColor := second.ignoreColor.or first.ignoreColor
  replaceBlank := second.replaceBlank.or first.replaceBlank
  replaceWhite := second.replaceWhite.or first.replaceWhite
  preset := second.preset.or first.preset
  template := second.template? first.template
  group := second.group.or first.group
  inventoryIcon := second.inventoryIcon.or first.inventoryIcon
  baseScale := second.baseScale.or first.baseScale
  fade := second.fade.or first.fade
  clearBackground := second.clearBackground.or first.clearBackground

def combined (os : List Override) : Override := os.foldl andThen none

def lastGiven? (field : Override → Option α) (os : List Override) : Option α :=
  (os.filterMap field).getLast?

def choosesItem (o : Override) : Bool := o.preset.isSome || o.template.isSome

def lastChoice? (os : List Override) : Option Override := (os.filter choosesItem).getLast?

theorem template?_of_choosesItem {o : Override} (h : o.choosesItem = true) (before : Option Path) :
    o.template? before = o.template := by
  cases ht : o.template with
  | some template => simp [template?, ht]
  | none =>
    cases hp : o.preset with
    | some preset => simp [template?, ht, hp]
    | none => simp [choosesItem, ht, hp] at h

theorem template?_of_not_choosesItem {o : Override} (h : ¬ o.choosesItem = true)
    (before : Option Path) : o.template? before = before := by
  simp only [choosesItem, Bool.or_eq_true, not_or, Bool.not_eq_true, Option.isSome_eq_false_iff,
    Option.isNone_iff_eq_none] at h
  simp [template?, h.1, h.2]

theorem template?_andThen (first second : Override) (before : Option Path) :
    (first.andThen second).template? before = second.template? (first.template? before) := by
  by_cases h : second.choosesItem = true
  · have both : (first.andThen second).choosesItem = true := by
      simp only [choosesItem, andThen, Bool.or_eq_true, Option.isSome_or] at h ⊢
      rcases h with preset | template
      · exact .inl (.inl preset)
      · obtain ⟨path, hpath⟩ := Option.isSome_iff_exists.mp template
        simp [template?, hpath]
    rw [template?_of_choosesItem both, template?_of_choosesItem h, andThen,
      template?_of_choosesItem h]
  · have none : second.preset = .none := by
      cases hp : second.preset with
      | none => rfl
      | some preset => simp [choosesItem, hp] at h
    rw [template?_of_not_choosesItem h, template?, template?]
    simp only [andThen, template?_of_not_choosesItem h, none, Option.none_or]

theorem apply_andThen (first second : Override) (s : Settings) :
    (first.andThen second).apply s = second.apply (first.apply s) := by
  simp only [apply, tiling, item, canvas, template?_andThen]
  simp only [andThen, Option.getD_or]

theorem combined_concat (os : List Override) (o : Override) :
    combined (os ++ [o]) = (combined os).andThen o := by
  simp [combined]

theorem lastGiven?_concat (field : Override → Option α) (os : List Override) (o : Override) :
    lastGiven? field (os ++ [o]) = (field o).or (lastGiven? field os) := by
  cases h : field o <;> simp [lastGiven?, h]

theorem lastGiven?_eq_combined (field : Override → Option α) (absent : field none = .none)
    (step : ∀ first second, field (first.andThen second) = (field second).or (field first))
    (os : List Override) : field (combined os) = lastGiven? field os := by
  induction os using List.reverseRecOn with
  | nil => exact absent
  | append_singleton os o ih => rw [combined_concat, step, ih, lastGiven?_concat]

theorem template?_combined (os : List Override) (before : Option Path) :
    (combined os).template? before =
      match lastChoice? os with
      | .none => before
      | some o => o.template := by
  induction os using List.reverseRecOn with
  | nil => rfl
  | append_singleton os o ih =>
    rw [combined_concat, template?_andThen, ih]
    by_cases h : o.choosesItem = true
    · rw [template?_of_choosesItem h]
      simp [lastChoice?, h]
    · rw [template?_of_not_choosesItem h]
      simp [lastChoice?, h]

end Override

namespace Settings

open Override (lastGiven? lastChoice? combined)

def mergeAll (s : Settings) : List Override → Settings × List (Except SettingsError Unit)
  | [] => (s, [])
  | o :: os =>
    let (merged, valid) := s.merge o
    let (last, others) := merged.mergeAll os
    (last, valid :: others)

theorem mergeAll_cons (s : Settings) (o : Override) (os : List Override) :
    s.mergeAll (o :: os) =
      (((o.apply s).mergeAll os).1, (o.apply s).check :: ((o.apply s).mergeAll os).2) := rfl

theorem mergeAll_fst (s : Settings) (os : List Override) :
    (s.mergeAll os).1 = (combined os).apply s := by
  have run : ∀ (os : List Override) (s : Settings),
      (s.mergeAll os).1 = os.foldl (fun s o => o.apply s) s := by
    intro os
    induction os with
    | nil => intro s; rfl
    | cons o os ih => intro s; exact ih (o.apply s)
  rw [run]
  induction os using List.reverseRecOn with
  | nil => rfl
  | append_singleton os o ih =>
    rw [Override.combined_concat, Override.apply_andThen, ← ih, List.foldl_append]
    rfl

theorem mergeAll_snd (s : Settings) (os : List Override) :
    (s.mergeAll os).2 =
      (List.range os.length).map fun k => (s.mergeAll (os.take (k + 1))).1.check := by
  induction os generalizing s with
  | nil => rfl
  | cons o os ih =>
    rw [mergeAll_cons, ih, List.length_cons, List.range_succ_eq_map, List.map_cons, List.map_map]
    rfl

theorem check_eq (s : Settings) :
    s.check = if s.faults = [] then .ok () else .error (.invalid s.faults) := by
  simp only [check, isValid, List.isEmpty_iff]

theorem mergeAll_eq_last_given (s : Settings) (os : List Override) :
    s.mergeAll os =
      ({ tiling :=
          { texture := (lastGiven? Override.texture os).getD s.tiling.texture
            handX := (lastGiven? Override.handX os).getD s.tiling.handX
            handY := (lastGiven? Override.handY os).getD s.tiling.handY
            ignoreColor := (lastGiven? Override.ignoreColor os).getD s.tiling.ignoreColor
            replaceBlank := (lastGiven? Override.replaceBlank os).getD s.tiling.replaceBlank
            replaceWhite := (lastGiven? Override.replaceWhite os).getD s.tiling.replaceWhite }
         item :=
          { preset := (lastGiven? Override.preset os).getD s.item.preset
            template :=
              match lastChoice? os with
              | none => s.item.template
              | some o => o.template
            group := (lastGiven? Override.group os).getD s.item.group
            inventoryIcon := (lastGiven? Override.inventoryIcon os).getD s.item.inventoryIcon }
         canvas :=
          { baseScale := (lastGiven? Override.baseScale os).getD s.canvas.baseScale
            fade := (lastGiven? Override.fade os).getD s.canvas.fade
            clearBackground :=
              (lastGiven? Override.clearBackground os).getD s.canvas.clearBackground } },
        (List.range os.length).map fun k =>
          let reached := (s.mergeAll (os.take (k + 1))).1
          if reached.faults = [] then .ok () else .error (.invalid reached.faults)) := by
  refine Prod.ext ?_ ?_
  · have given {α : Type} (field : Override → Option α) := Override.lastGiven?_eq_combined field
    rw [mergeAll_fst, ← Override.template?_combined, ← given Override.texture rfl fun _ _ => rfl,
      ← given Override.handX rfl fun _ _ => rfl, ← given Override.handY rfl fun _ _ => rfl,
      ← given Override.ignoreColor rfl fun _ _ => rfl,
      ← given Override.replaceBlank rfl fun _ _ => rfl,
      ← given Override.replaceWhite rfl fun _ _ => rfl, ← given Override.preset rfl fun _ _ => rfl,
      ← given Override.group rfl fun _ _ => rfl,
      ← given Override.inventoryIcon rfl fun _ _ => rfl,
      ← given Override.baseScale rfl fun _ _ => rfl, ← given Override.fade rfl fun _ _ => rfl,
      ← given Override.clearBackground rfl fun _ _ => rfl]
    rfl
  · simp only [mergeAll_snd, check_eq]

end Settings

end Recolor
