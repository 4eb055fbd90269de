import Recolor.Mosaic.Weave

namespace Recolor.Mosaic.Options

variable {o : Options} {c d : Color}

def Omits (o : Options) (c : Color) : Prop :=
  o.ignored = some c ∨ c.alpha = 0 ∧ o.replaceBlank = false

def Shows (o : Options) (c : Color) : Prop := 1 < c.alpha ∧ o.ignored ≠ some c

instance (o : Options) (c : Color) : Decidable (o.Omits c) :=
  inferInstanceAs (Decidable (_ ∨ _))

instance (o : Options) (c : Color) : Decidable (o.Shows c) :=
  inferInstanceAs (Decidable (_ ∧ _))

def written (o : Options) (c : Color) : Color :=
  if c = Color.white ∧ (o.replaceBlank = true ∨ o.replaceWhite = true) then Color.nearWhite else c

def restored (o : Options) (c : Color) : Color :=
  if o.Omits c then Color.clear else o.written c

theorem alpha_ne_zero_iff : c.alpha ≠ 0 ↔ 1 ≤ c.alpha := by
  rw [UInt8.le_iff_toNat_le, ne_eq, ← UInt8.toNat_inj]
  change ¬ c.alpha.toNat = 0 ↔ 1 ≤ c.alpha.toNat
  omega

theorem not_omits_iff :
    ¬ o.Omits c ↔ o.ignored ≠ some c ∧ (1 ≤ c.alpha ∨ o.replaceBlank = true) := by
  rw [Omits, not_or, not_and, Bool.not_eq_false, ← alpha_ne_zero_iff, ne_eq, ne_eq,
    Decidable.imp_iff_not_or]

theorem leavesOut_iff : o.leavesOut c = true ↔ o.Omits c := by
  simp [leavesOut, Omits]

theorem replaces_iff : (o.replacesWhite && c == Color.white) = true ↔
    c = Color.white ∧ (o.replaceBlank = true ∨ o.replaceWhite = true) := by
  simp [replacesWhite, and_comm]

theorem encode?_of_omits (h : o.Omits c) : o.encode? c = none := by
  rw [encode?, if_pos (leavesOut_iff.mpr h)]

theorem encode?_of_not_omits (h : ¬ o.Omits c) : o.encode? c = some (o.written c) := by
  rw [encode?, if_neg (mt leavesOut_iff.mp h)]
  simp only [replaces_iff, written]
  split <;> rfl

theorem encode?_eq_some_iff : o.encode? c = some d ↔ ¬ o.Omits c ∧ d = o.written c := by
  by_cases h : o.Omits c
  · simp [encode?_of_omits h, h]
  · simp [encode?_of_not_omits h, h, eq_comm]

theorem encode?_getD_clear : (o.encode? c).getD Color.clear = o.restored c := by
  by_cases h : o.Omits c
  · rw [encode?_of_omits h, restored, if_pos h, Option.getD_none]
  · rw [encode?_of_not_omits h, restored, if_neg h, Option.getD_some]

theorem alpha_written : (o.written c).alpha = c.alpha := by
  unfold written
  split
  · next h => rw [h.1]; rfl
  · rfl

theorem written_ne_white (h : o.replaceBlank = true ∨ o.replaceWhite = true) (c : Color) :
    o.written c ≠ Color.white := by
  unfold written
  split
  · decide
  · next kept => exact fun white => kept ⟨white, h⟩

theorem not_omits_of_shows (h : o.Shows c) : ¬ o.Omits c := by
  rintro (hi | ⟨ha, -⟩)
  · exact h.2 hi
  · exact absurd (ha ▸ h.1) (by decide)

theorem restored_of_shows (h : o.Shows c) : o.restored c = o.written c :=
  if_neg (not_omits_of_shows h)

theorem restored_of_ne_clear (h : o.restored c ≠ Color.clear) : o.restored c = o.written c := by
  by_cases omits : o.Omits c
  · exact absurd (if_pos omits) h
  · exact if_neg omits

theorem exists_visible_iff :
    (∃ d, o.encode? c = some d ∧ d.isVisible = true) ↔ o.Shows c := by
  simp only [encode?_eq_some_iff, Color.isVisible, decide_eq_true_eq]
  constructor
  · rintro ⟨d, ⟨kept, rfl⟩, visible⟩
    exact ⟨alpha_written ▸ visible, fun ignored => kept (.inl ignored)⟩
  · intro shows
    exact ⟨o.written c, ⟨not_omits_of_shows shows, rfl⟩, alpha_written.symm ▸ shows.1⟩

theorem written_idem : o.written (o.written c) = o.written c := by
  by_cases h : c = Color.white ∧ (o.replaceBlank = true ∨ o.replaceWhite = true)
  · have near : o.written c = Color.nearWhite := if_pos h
    rw [near, written, if_neg fun h => absurd h.1 (by decide)]
  · rw [show o.written c = c from if_neg h, show o.written c = c from if_neg h]

theorem ignored_ne_written (kept : o.ignored ≠ some c)
    (near : ¬ (o.ignored = some Color.nearWhite ∧
      (o.replaceBlank = true ∨ o.replaceWhite = true))) :
    o.ignored ≠ some (o.written c) := by
  unfold written
  split
  · next h => exact fun ignored => near ⟨ignored, h.2⟩
  · exact kept

theorem encode?_restored
    (blank : o.replaceBlank = false ∨ o.ignored = none ∨ o.ignored = some Color.clear)
    (near : ¬ (o.ignored = some Color.nearWhite ∧
      (o.replaceBlank = true ∨ o.replaceWhite = true))) :
    o.encode? (o.restored c) = o.encode? c := by
  by_cases h : o.Omits c
  · have clear : o.Omits Color.clear := by
      rcases blank with off | none | clear
      · exact .inr ⟨rfl, off⟩
      · rcases h with ignored | ⟨-, off⟩
        · exact nomatch none.symm.trans ignored
        · exact .inr ⟨rfl, off⟩
      · exact .inl clear
    rw [restored, if_pos h, encode?_of_omits h, encode?_of_omits clear]
  · have kept : ¬ o.Omits (o.written c) := by
      rw [not_omits_iff, alpha_written]
      exact ⟨ignored_ne_written (not_omits_iff.mp h).1 near, (not_omits_iff.mp h).2⟩
    rw [restored, if_neg h, encode?_of_not_omits h, encode?_of_not_omits kept, written_idem]

theorem not_shows_clear : ¬ o.Shows Color.clear := by
  rintro ⟨h, -⟩
  exact absurd h (by decide)

end Recolor.Mosaic.Options
