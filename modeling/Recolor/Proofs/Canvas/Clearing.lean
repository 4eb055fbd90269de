import Recolor.Proofs.Canvas.Decomposition

namespace Recolor

namespace Canvas

open Color (isCodeDigit isCodeDigit_iff isCodeDigit_of_isDigit)

variable {c : Canvas} {d : Drawable} {m : Mosaic} {cs : List Char}

inductive EndsUncleared : List Char → Prop where
  | marked (before : List Char) {mark : Char} {code : List Char}
    (digits : ∀ c ∈ code, isCodeDigit c = true) (other : isCodeDigit mark = false)
    (key : mark = '=' → ∃ last ∈ before.getLast?, last ≠ 'f') :
    EndsUncleared (before ++ mark :: code)

theorem EndsUncleared.prepend (h : EndsUncleared cs) (start : List Char) :
    EndsUncleared (start ++ cs) := by
  obtain ⟨before, digits, other, key⟩ := h
  rw [← List.append_assoc]
  refine .marked _ digits other fun equals => ?_
  obtain ⟨last, hlast, ne⟩ := key equals
  refine ⟨last, ?_, ne⟩
  rw [List.getLast?_append, hlast]
  rfl

theorem toList_clearText :
    clearText.toList = "?replace;ffffffff".toList ++ '=' :: List.replicate 8 '0' := by
  decide

theorem EndsUncleared.not_suffix (h : EndsUncleared cs) : ¬ clearText.toList <:+ cs := by
  obtain ⟨before, digits, other, key⟩ := h
  rintro ⟨start, same⟩
  have zeros (c : Char) (h : c ∈ List.replicate 8 '0') : isCodeDigit c = true := by
    rw [List.eq_of_mem_replicate h]
    decide
  rw [toList_clearText, ← List.append_assoc] at same
  obtain ⟨rfl, rfl, -⟩ := Text.append_mark_inj zeros digits (by decide) other same
  obtain ⟨last, hlast, ne⟩ := key rfl
  rw [List.getLast?_append] at hlast
  exact ne (Option.some.inj hlast).symm

theorem endsUncleared_header (m : Mosaic) (scale : Nat) :
    EndsUncleared (header m scale).toList := by
  have height (c : Char) (hc : c ∈ m.height.toNat.repr.toList) : isCodeDigit c = true :=
    isCodeDigit_of_isDigit (Text.isDigit_of_mem_repr hc)
  have piece : EndsUncleared ([] ++ ';' :: m.height.toNat.repr.toList) :=
    .marked [] height (by decide) fun equals => absurd equals (by decide)
  rw [toList_header]
  exact (((piece.prepend _).prepend _).prepend _).prepend _

theorem endsUncleared_fadeText : EndsUncleared fadeText.toList := by
  have digits : ∀ c ∈ "0001518".toList, isCodeDigit c = true := List.all_eq_true.mp rfl
  exact .marked "?fade;80ff80;0".toList digits (by decide) fun equals => absurd equals (by decide)

theorem endsUncleared_operator {groups : List Char} (h : Chain.Groups groups) :
    EndsUncleared (Chain.operator.toList ++ groups) := by
  rcases h.eq_nil_or_last with rfl | ⟨before, key, value, hk, hv, rfl⟩
  · have digits : ∀ c ∈ ([] : List Char), isCodeDigit c = true := nofun
    exact .marked "?replac".toList digits (by decide) fun equals => absurd equals (by decide)
  · have digits (c : Char) (hc : c ∈ value) : isCodeDigit c = true :=
      isCodeDigit_iff.mpr (hv.2 c hc)
    refine .prepend (.marked (before ++ key) digits (by decide) fun _ => ?_) _
    -- Keys are written in capital letters, but that of the clearing piece is not.
    obtain ⟨last, hlast, digit⟩ := hk.exists_last
    refine ⟨last, ?_, ?_⟩
    · rw [List.getLast?_append, hlast]
      rfl
    · rintro rfl
      exact absurd (isCodeDigit_iff.mpr digit) (by decide)

theorem endsUncleared_blend (h : Chain.Canonical d.directives) :
    EndsUncleared (c.blend d).toList := by
  obtain ⟨groups, hg, chain⟩ := h
  have shown : EndsUncleared (d.directives.toList ++ c.fading) := by
    unfold fading
    cases c.fade
    · rw [chain]
      exact (List.append_nil _).symm ▸ endsUncleared_operator hg
    · exact endsUncleared_fadeText.prepend _
  rw [toList_blend]
  exact (((((shown.prepend _).prepend [';']).prepend _).prepend [';']).prepend _).prepend _

theorem endsUncleared_blends {start : List Char} {ds : List Drawable} (h : EndsUncleared start)
    (hds : ∀ d ∈ ds, Chain.Canonical d.directives) : EndsUncleared (start ++ c.blends ds) := by
  rcases List.eq_nil_or_concat' ds with rfl | ⟨front, last, rfl⟩
  · exact (List.append_nil start).symm ▸ h
  · have shown := endsUncleared_blend (c := c) (hds last List.mem_concat_self)
    rw [blends_concat]
    exact (shown.prepend _).prepend _

theorem ending_of_cleared (cleared : c.clearBackground = true) : c.ending = clearText.toList := by
  rw [ending, cleared, if_pos rfl]

theorem ending_of_uncleared (uncleared : c.clearBackground = false) : c.ending = [] := by
  unfold ending
  rw [uncleared]
  rfl

theorem clearText_suffix_iff {text : String} (hm : ∀ d ∈ m.drawables, Chain.Canonical d.directives)
    (h : c.compose m = .ok text) :
    clearText.toList <:+ text.toList ↔ c.clearBackground = true := by
  obtain ⟨scale, htext⟩ := toList_compose h
  rw [htext, ← List.append_assoc]
  cases cleared : c.clearBackground with
  | true =>
    rw [ending_of_cleared cleared]
    exact iff_of_true (List.suffix_append ..) rfl
  | false =>
    rw [ending_of_uncleared cleared, List.append_nil]
    exact iff_of_false (endsUncleared_blends (endsUncleared_header m scale) hm).not_suffix nofun

end Canvas

end Recolor
