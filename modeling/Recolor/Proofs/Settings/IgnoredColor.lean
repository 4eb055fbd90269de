import Recolor.Proofs.Color.Reading
import Recolor.Proofs.Settings.Validity

namespace Recolor

namespace Color

variable {cs ds : List Char} {s : String}

theorem ofChars_trim (cs : List Char) : ofChars (Text.trim cs) = ofChars cs := by
  rw [ofChars, Text.trim_trim, ofChars]

theorem ofDigits_eq_empty_iff : ofDigits ds = .error .empty ↔ ds = [] := by
  rw [ofDigits_eq_iff]
  constructor
  · rintro ⟨⟩
    rfl
  · rintro rfl
    exact .empty

theorem dropNumberSign_eq_nil_iff : dropNumberSign cs = [] ↔ cs = [] ∨ cs = ['#'] := by
  rw [← unsigned_iff]
  constructor
  · rintro (_ | _)
    · exact .inr rfl
    · exact .inl rfl
  · rintro (rfl | rfl)
    · exact .plain nofun
    · exact .signed []

theorem ofHex_eq_empty_iff :
    ofHex s = .error .empty ↔ Text.trim s.toList = [] ∨ Text.trim s.toList = ['#'] := by
  rw [ofHex, ofChars, ofDigits_eq_empty_iff, dropNumberSign_eq_nil_iff]

theorem optionalOfHex_of_empty (h : ofHex s = .error .empty) : optionalOfHex s = .ok none := by
  have blank : (Text.trim s.toList).isEmpty || Text.trim s.toList == ['#'] := by
    simpa using ofHex_eq_empty_iff.mp h
  exact if_pos blank

theorem optionalOfHex_of_ne_empty (h : ofHex s ≠ .error .empty) :
    optionalOfHex s = (ofHex s).map some := by
  have named : ¬ ((Text.trim s.toList).isEmpty || Text.trim s.toList == ['#']) := by
    simpa using mt ofHex_eq_empty_iff.mpr h
  have reads : optionalOfHex s = (ofChars (Text.trim s.toList)).map some := if_neg named
  -- the text is trimmed here and once more where it is read
  rw [reads, ofChars_trim, ofHex]

theorem optionalOfHex_eq_none_iff : optionalOfHex s = .ok none ↔ ofHex s = .error .empty := by
  constructor
  · intro absent
    by_cases empty : ofHex s = .error .empty
    · exact empty
    · rw [optionalOfHex_of_ne_empty empty] at absent
      obtain ⟨_, -, ⟨⟩⟩ := Attempt.map_eq_ok_iff.mp absent
  · exact optionalOfHex_of_empty

end Color

namespace Settings

variable {c : Settings} {cause : Color.HexError}

theorem ignoreColor_mem_faults_iff :
    .ignoreColor cause ∈ c.faults ↔
      Color.optionalOfHex c.tiling.ignoreColor = .error cause := by
  have texture : .ignoreColor cause ∉ c.textureFaults := by simp [textureFaults]
  have scale : .ignoreColor cause ∉ c.scaleFaults := by simp [scaleFaults]
  have color : .ignoreColor cause ∈ c.colorFaults ↔
      Color.optionalOfHex c.tiling.ignoreColor = .error cause := by
    unfold colorFaults
    cases Color.optionalOfHex c.tiling.ignoreColor <;> simp [eq_comm]
  simp only [faults, List.mem_append, texture, color, scale, false_or, or_false]

theorem exists_ignoreColor_of_field {f : SettingsFault} (h : f.field = "compile.ignore_color") :
    ∃ cause, f = .ignoreColor cause := by
  cases f with
  | ignoreColor cause => exact ⟨cause, rfl⟩
  | emptyTexture => simp [SettingsFault.field] at h
  | zeroBaseScale => simp [SettingsFault.field] at h

theorem options_eq_error_iff :
    c.options = .error cause ↔ Color.optionalOfHex c.tiling.ignoreColor = .error cause :=
  Attempt.map_eq_error_iff

theorem exists_options_ignored_iff {color : Option Color} :
    (∃ o, c.options = .ok o ∧ o.ignored = color) ↔
      Color.optionalOfHex c.tiling.ignoreColor = .ok color := by
  unfold options
  simp only [Attempt.map_eq_ok_iff]
  constructor
  · rintro ⟨_, ⟨ignored, read, rfl⟩, rfl⟩
    exact read
  · intro read
    exact ⟨_, ⟨color, read, rfl⟩, rfl⟩

theorem optionalOfHex_agrees_everywhere (s : String) :
    (Color.optionalOfHex s = .ok none ↔ Color.ofHex s = .error .empty) ∧
    (Color.ofHex s ≠ .error .empty → Color.optionalOfHex s = (Color.ofHex s).map some) ∧
    (∀ c : Settings, c.tiling.ignoreColor = s →
      (∀ message,
        (∃ f ∈ c.faults, f.field = "compile.ignore_color" ∧ f.message = message) ↔
          ∃ cause, Color.optionalOfHex s = .error cause ∧ cause.message = message) ∧
      (∀ cause, c.options = .error cause ↔ Color.optionalOfHex s = .error cause) ∧
      ∀ color, (∃ o, c.options = .ok o ∧ o.ignored = color) ↔
        Color.optionalOfHex s = .ok color) ∧
    ∀ p o,
      (∀ color, Color.optionalOfHex s = .ok color →
        Mosaic.ofPictureIgnoring p o s = Mosaic.ofPicture p { o with ignored := color }) ∧
      ∀ cause, Color.optionalOfHex s = .error cause →
        Mosaic.ofPictureIgnoring p o s = .error (.ignoredColor cause) := by
  refine ⟨Color.optionalOfHex_eq_none_iff, Color.optionalOfHex_of_ne_empty, ?_, fun p o => ?_⟩
  · rintro c rfl
    refine ⟨fun message => ?_, fun cause => options_eq_error_iff,
      fun color => exists_options_ignored_iff⟩
    constructor
    · rintro ⟨f, reported, field, rfl⟩
      obtain ⟨cause, rfl⟩ := exists_ignoreColor_of_field field
      exact ⟨cause, ignoreColor_mem_faults_iff.mp reported, rfl⟩
    · rintro ⟨cause, fails, rfl⟩
      exact ⟨.ignoreColor cause, ignoreColor_mem_faults_iff.mpr fails, rfl, rfl⟩
  · unfold Mosaic.ofPictureIgnoring
    refine ⟨fun color read => ?_, fun cause fails => ?_⟩
    · rw [read]
    · rw [fails]

end Settings

end Recolor
