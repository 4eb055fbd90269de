import Recolor.Proofs.Mosaic.Restoration
import Recolor.Proofs.Run.Stages

namespace Recolor.Workspace

variable {w : Workspace} {codec : Picture.Codec} {i : Invocation} {s : Settings} {m : Mosaic}

theorem prepares_of_prepare (h : w.prepare codec i = .ok (s, m)) : w.Prepares codec i s m := by
  rcases w.prepare_cases codec i with
    ⟨-, e, failed, -⟩ | ⟨-, -, e, failed, -⟩ | ⟨-, -, s', m', prepares⟩
  · cases h.symm.trans failed
  · cases h.symm.trans failed
  · cases h.symm.trans prepares.prepared
    exact prepares

theorem settles_iff : w.Settles i s ↔ w.settingsOf i = .ok s := by
  constructor
  · rintro ⟨found, hfound, rfl, valid⟩
    rw [settingsOf_of_settings hfound, Settings.check_eq, if_pos valid]
    rfl
  · intro h
    rcases w.settingsOf_cases i with ⟨-, e, failed, -⟩ | ⟨-, s', settles, hs⟩
    · cases h.symm.trans failed
    · cases h.symm.trans hs
      exact settles

theorem settingsOf_ne_ignoredColor (cause : Color.HexError) :
    w.settingsOf i ≠ .error (.ignoredColor cause) := by
  intro failed
  rcases Attempt.bind_eq_error_iff.mp failed with unread | ⟨found, -, invalid⟩
  · obtain ⟨e, -, other⟩ := Attempt.mapError_eq_error_iff.mp unread
    cases other
  · rcases Attempt.bind_eq_error_iff.mp invalid with faults | ⟨_, -, other⟩
    · obtain ⟨e, -, other⟩ := Attempt.mapError_eq_error_iff.mp faults
      cases other
    · cases other

theorem pictureOf_ne_ignoredColor (p : Path) (cause : Color.HexError) :
    w.pictureOf codec p ≠ .error (.ignoredColor cause) := by
  intro failed
  unfold pictureOf at failed
  split at failed
  · cases failed
  · split at failed
    · cases failed
    · rcases Attempt.bind_eq_error_iff.mp failed with large | ⟨_, -, undecoded⟩
      · obtain ⟨e, -, other⟩ := Attempt.mapError_eq_error_iff.mp large
        cases other
      · split at undecoded <;> cases undecoded

theorem prepare_ne_ignoredColor (cause : Color.HexError) :
    w.prepare codec i ≠ .error (.ignoredColor cause) := by
  intro failed
  cases settled : w.settingsOf i with
  | error e =>
    rw [prepare, settled] at failed
    cases failed
    exact settingsOf_ne_ignoredColor cause settled
  | ok s =>
    obtain ⟨o, ho⟩ := Settings.options_of_valid (settles_iff.mpr settled).valid
    rw [prepare_of_settingsOf settled ho] at failed
    rcases Attempt.bind_eq_error_iff.mp failed with unseen | ⟨p, -, unwoven⟩
    · exact pictureOf_ne_ignoredColor _ cause unseen
    · cases woven : Mosaic.ofPicture p o with
      | error e => rw [woven] at unwoven; cases unwoven
      | ok m => rw [woven] at unwoven; cases unwoven

theorem product_preview (woven : ∃ p o, Mosaic.ofPicture p o = .ok m) (scale : UInt8) :
    ∃ picture, w.product s m (.preview scale) = .ok (.picture picture) := by
  obtain ⟨p, o, woven⟩ := woven
  obtain ⟨small, rfl⟩ := Mosaic.ofPicture_eq_ok_iff.mp woven
  refine ⟨(Mosaic.repainted p o).magnify scale, ?_⟩
  rw [product, Mosaic.toPicture_woven small]
  rfl

theorem isValid_iff_and_run_never_fails :
    (∀ s : Settings, s.isValid = true ↔
      s.tiling.texture ≠ "" ∧ (∃ o, s.options = .ok o) ∧
        ∀ m, ∃ text, s.canvas.compose m = .ok text) ∧
    (∀ file bytes s, Settings.ofFile file bytes = .ok s → s.isValid = true) ∧
    (∀ (w : Workspace) named s, w.settings named = .ok s → s.isValid = true) ∧
    (∀ (s : Settings) o, (s.merge o).2 = .ok () → (s.merge o).1.isValid = true) ∧
    ∀ (w : Workspace) codec i,
      (∀ s, w.settingsOf i = .ok s → s.isValid = true ∧ ∃ o, s.options = .ok o) ∧
      (∀ cause, w.prepare codec i ≠ .error (.ignoredColor cause)) ∧
      ∀ s m, w.prepare codec i = .ok (s, m) →
        (∀ baseScale fade keepBackground, ∃ text,
          w.product s m (.single baseScale fade keepBackground) = .ok (.text text)) ∧
        ∀ scale, ∃ picture, w.product s m (.preview scale) = .ok (.picture picture) := by
  refine ⟨fun s => ?_, fun _ _ _ => Settings.isValid_of_ofFile, fun _ _ _ => isValid_of_settings,
    fun _ _ => Settings.isValid_of_merge, fun w codec i => ⟨fun s settled => ?_,
      prepare_ne_ignoredColor, fun s m prepared => ?_⟩⟩
  · rw [Settings.isValid_iff_faults, Settings.faults_eq_nil_iff, Canvas.forall_compose_iff]
  · have valid := (settles_iff.mpr settled).valid
    exact ⟨Settings.isValid_iff_faults.mpr valid, Settings.options_of_valid valid⟩
  · have prepares := prepares_of_prepare prepared
    refine ⟨fun baseScale fade keepBackground => ?_, product_preview prepares.woven⟩
    obtain ⟨text, -, made⟩ := product_single (w := w) prepares.settles.valid prepares.woven
      baseScale fade keepBackground
    exact ⟨text, made⟩

theorem single_of_white_never_fails :
    let i : Invocation := ⟨.single none false false, ⟨.ofText "a.png", none, none, none, none,
      false, false, none⟩, false, none⟩
    let picture := Png.encode (Picture.filled 1 1 Color.white)
    let w : Workspace := ⟨⟨[(["a.png"], .file picture)]⟩, [], none, none⟩
    w.settings none = .ok Settings.default ∧ Settings.default.isValid = true ∧
      (Settings.default.merge i.override).2 = .ok () ∧
      (Settings.default.merge i.override).1.isValid = true ∧
      ∃ s m, w.settingsOf i = .ok s ∧ s.isValid = true ∧ w.prepare Png.codec i = .ok (s, m) ∧
        ∃ text, w.product s m i.task = .ok (.text text) := by
  intro i picture w
  obtain ⟨-, -, read, merge, run⟩ := isValid_iff_and_run_never_fails
  have found : w.settings none = .ok Settings.default := by decide +kernel
  have merged : (Settings.default.merge i.override).2 = .ok () := by decide
  have woven : (w.prepare Png.codec i).toBool = true := by decide +kernel
  cases prepared : w.prepare Png.codec i with
  | error e => cases prepared ▸ woven
  | ok made =>
    obtain ⟨s, m⟩ := made
    have settled : w.settingsOf i = .ok s := settles_iff.mp (prepares_of_prepare prepared).settles
    obtain ⟨valid, -, composes⟩ := run w Png.codec i
    exact ⟨found, read w none _ found, merged, merge _ _ merged, s, m, settled,
      (valid s settled).1, rfl, (composes s m prepared).1 none false false⟩

end Recolor.Workspace
