import Recolor.Proofs.Item.Usable
import Recolor.Proofs.Run.Ending
import Recolor.Proofs.Settings.Merging
import Recolor.Proofs.Settings.Validity

namespace Recolor

def FailsWith (code : UInt8) {α : Type} (result : Except RunError α) : Prop :=
  ∃ e, result = .error e ∧ e.exitCode = code

theorem FailsWith.bind {code : UInt8} {α β : Type} {result : Except RunError α}
    (h : FailsWith code result) (next : α → Except RunError β) :
    FailsWith code (result >>= next) := by
  obtain ⟨e, he, hcode⟩ := h
  exact ⟨e, Attempt.bind_eq_error_iff.mpr (.inl he), hcode⟩

namespace Workspace

variable {w : Workspace} {codec : Picture.Codec} {i : Invocation} {s : Settings} {m : Mosaic}

def Settles (w : Workspace) (i : Invocation) (s : Settings) : Prop :=
  ∃ found, w.settings i.config = .ok found ∧ i.override.apply found = s ∧ s.faults = []

inductive SettingsFail (w : Workspace) (i : Invocation) : Prop where
  | unread {e : SettingsError} (h : w.settings i.config = .error e)
  | invalid {found : Settings} (h : w.settings i.config = .ok found)
    (faults : (i.override.apply found).faults ≠ [])

inductive PictureFails (w : Workspace) (codec : Picture.Codec) (p : Path) : Prop where
  | unread (h : w.read? p = none)
  | unsized {bytes : ByteArray} (h : w.read? p = some bytes) (size : codec.size? p bytes = none)
  | large {bytes : ByteArray} {width height : UInt32} (h : w.read? p = some bytes)
    (size : codec.size? p bytes = some (width, height))
    (large : 32768 < width.toNat * height.toNat)
  | undecoded {bytes : ByteArray} (h : w.read? p = some bytes)
    (pixels : codec.decode? p bytes = none)
  | larger {bytes : ByteArray} {picture : Picture} (h : w.read? p = some bytes)
    (pixels : codec.decode? p bytes = some picture)
    (large : 32768 < picture.width.toNat * picture.height.toNat)

def Makes (w : Workspace) (codec : Picture.Codec) (i : Invocation) (text : String) : Prop :=
  ∃ s m, w.prepare codec i = .ok (s, m) ∧ w.product s m i.task = .ok (.text text)

structure Prepares (w : Workspace) (codec : Picture.Codec) (i : Invocation) (s : Settings)
    (m : Mosaic) : Prop where
  settles : w.Settles i s
  woven : ∃ p o, Mosaic.ofPicture p o = .ok m
  prepared : w.prepare codec i = .ok (s, m)

theorem Settles.valid (h : w.Settles i s) : s.faults = [] := by
  obtain ⟨-, -, -, valid⟩ := h
  exact valid

theorem Settles.unique {s' : Settings} (h : w.Settles i s) (h' : w.Settles i s') : s = s' := by
  obtain ⟨found, hfound, rfl, -⟩ := h
  obtain ⟨_, hfound', rfl, -⟩ := h'
  cases hfound.symm.trans hfound'
  rfl

theorem settingsOf_of_settings {found : Settings} (h : w.settings i.config = .ok found) :
    w.settingsOf i =
      ((i.override.apply found).check.mapError .settings).map fun _ => i.override.apply found := by
  rw [settingsOf, h]
  rfl

theorem settingsOf_cases (w : Workspace) (i : Invocation) :
    w.SettingsFail i ∧ FailsWith 2 (w.settingsOf i) ∨
      ¬ w.SettingsFail i ∧ ∃ s, w.Settles i s ∧ w.settingsOf i = .ok s := by
  cases hfound : w.settings i.config with
  | error e =>
    refine .inl ⟨.unread hfound, .settings e, ?_, rfl⟩
    rw [settingsOf, hfound]
    rfl
  | ok found =>
    rw [settingsOf_of_settings hfound, Settings.check_eq]
    by_cases valid : (i.override.apply found).faults = []
    · rw [if_pos valid]
      refine .inr ⟨?_, i.override.apply found, ⟨found, hfound, rfl, valid⟩, rfl⟩
      rintro (h | ⟨h, faults⟩)
      · cases hfound.symm.trans h
      · cases hfound.symm.trans h
        exact faults valid
    · rw [if_neg valid]
      exact .inl ⟨.invalid hfound valid, _, rfl, rfl⟩

theorem not_pictureFails {p : Path} {bytes : ByteArray} {width height : UInt32} {picture : Picture}
    (read : w.read? p = some bytes) (size : codec.size? p bytes = some (width, height))
    (pixels : codec.decode? p bytes = some picture)
    (told : width.toNat * height.toNat ≤ Mosaic.pixelLimit)
    (small : picture.area ≤ Mosaic.pixelLimit) : ¬ w.PictureFails codec p := by
  rintro (h | ⟨h, none⟩ | ⟨h, other, large⟩ | ⟨h, none⟩ | ⟨h, other, large⟩) <;>
    cases read.symm.trans h
  · cases size.symm.trans none
  · cases size.symm.trans other
    exact Nat.not_lt.mpr told large
  · cases pixels.symm.trans none
  · cases pixels.symm.trans other
    exact Nat.not_lt.mpr small large

theorem prepare_of_settingsOf {o : Mosaic.Options} (hs : w.settingsOf i = .ok s)
    (ho : s.options = .ok o) :
    w.prepare codec i = w.pictureOf codec i.source.input >>= fun picture =>
      ((Mosaic.ofPicture picture o).mapError .mosaic).map fun mosaic => (s, mosaic) := by
  rw [prepare, hs]
  change (s.options.mapError _ >>= _) = _
  rw [ho]
  rfl

theorem pictureOf_cases (w : Workspace) (codec : Picture.Codec) (p : Path) :
    w.PictureFails codec p ∧ (FailsWith 1 (w.pictureOf codec p) ∨
        ∃ picture : Picture, Mosaic.pixelLimit < picture.area ∧
          w.pictureOf codec p = .ok picture) ∨
      ¬ w.PictureFails codec p ∧ ∃ picture : Picture, picture.area ≤ Mosaic.pixelLimit ∧
        w.pictureOf codec p = .ok picture := by
  unfold pictureOf
  cases read : w.read? p with
  | none => exact .inl ⟨.unread read, .inl ⟨_, rfl, rfl⟩⟩
  | some bytes =>
    dsimp only
    cases size : codec.size? p bytes with
    | none => exact .inl ⟨.unsized read size, .inl ⟨_, rfl, rfl⟩⟩
    | some told =>
      obtain ⟨width, height⟩ := told
      rcases Nat.lt_or_ge Mosaic.pixelLimit (width.toNat * height.toNat) with large | told
      · refine .inl ⟨.large read size large, .inl ⟨.mosaic (.tooLarge width height), ?_, rfl⟩⟩
        simp only [Mosaic.checkSize_of_lt large]
        rfl
      simp only [Mosaic.checkSize_of_le told]
      cases pixels : codec.decode? p bytes with
      | none => exact .inl ⟨.undecoded read pixels, .inl ⟨.undecodablePicture p, rfl, rfl⟩⟩
      | some picture =>
        rcases Nat.lt_or_ge Mosaic.pixelLimit picture.area with larger | small
        · exact .inl ⟨.larger read pixels larger, .inr ⟨picture, larger, rfl⟩⟩
        · exact .inr ⟨not_pictureFails read size pixels told small, picture, small, rfl⟩

theorem prepare_cases (w : Workspace) (codec : Picture.Codec) (i : Invocation) :
    w.SettingsFail i ∧ FailsWith 2 (w.prepare codec i) ∨
      ¬ w.SettingsFail i ∧ w.PictureFails codec i.source.input ∧
        FailsWith 1 (w.prepare codec i) ∨
      ¬ w.SettingsFail i ∧ ¬ w.PictureFails codec i.source.input ∧
        ∃ s m, w.Prepares codec i s m := by
  rcases w.settingsOf_cases i with ⟨fail, failed⟩ | ⟨fine, s, settles, hs⟩
  · exact .inl ⟨fail, failed.bind _⟩
  obtain ⟨o, ho⟩ := Settings.options_of_valid settles.valid
  rcases w.pictureOf_cases codec i.source.input with
    ⟨fail, failed | ⟨p, large, hp⟩⟩ | ⟨seen, p, small, hp⟩
  · refine .inr (.inl ⟨fine, fail, ?_⟩)
    rw [prepare_of_settingsOf hs ho]
    exact failed.bind _
  · refine .inr (.inl ⟨fine, fail, .mosaic (.tooLarge p.width p.height), ?_, rfl⟩)
    rw [prepare_of_settingsOf hs ho, hp]
    refine Attempt.bind_eq_error_iff.mpr (.inr ⟨p, rfl, ?_⟩)
    rw [Mosaic.ofPicture_of_lt large]
    rfl
  · have woven := Mosaic.ofPicture_of_le (o := o) small
    refine .inr (.inr ⟨fine, seen, s, Mosaic.woven p o, settles, ⟨p, o, woven⟩, ?_⟩)
    rw [prepare_of_settingsOf hs ho, hp, Attempt.bind_eq_ok_iff]
    exact ⟨p, rfl, by rw [woven]; rfl⟩

theorem exists_runWith_of_unprepared {devices : Devices} {code : UInt8}
    (h : FailsWith code (w.prepare devices.codec i)) :
    ∃ e : RunError, e.exitCode = code ∧ w.runWith devices i = .failed w.tree [] e := by
  obtain ⟨e, failed, exits⟩ := h
  exact ⟨e, exits, by simp only [runWith, failed]⟩

theorem product_single (valid : s.faults = []) (woven : ∃ p o, Mosaic.ofPicture p o = .ok m)
    (baseScale : Option UInt32) (fade keepBackground : Bool) :
    ∃ text, Text.EndsOpen text ∧
      w.product s m (.single baseScale fade keepBackground) = .ok (.text text) := by
  obtain ⟨p, o, woven⟩ := woven
  obtain ⟨text, composed⟩ := Settings.compose_of_valid valid m
  refine ⟨text, Canvas.endsOpen_compose woven composed, ?_⟩
  rw [product, composed]
  rfl

end Workspace

end Recolor
