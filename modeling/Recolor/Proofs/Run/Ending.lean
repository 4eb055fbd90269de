import Recolor.Proofs.Attempt
import Recolor.Proofs.Chain.RoundTrip
import Recolor.Proofs.Mosaic.Tiling
import Recolor.Run

namespace Recolor

namespace Text

def EndsOpen (s : String) : Prop := s.toList.getLast? ≠ some '\n'

instance (s : String) : Decidable (EndsOpen s) := inferInstanceAs (Decidable (_ ≠ _))

theorem endsOpen_append {s t : String} (hs : EndsOpen s) (ht : EndsOpen t) : EndsOpen (s ++ t) := by
  unfold EndsOpen at *
  rw [String.toList_append, List.getLast?_append]
  cases h : t.toList.getLast? with
  | none => exact hs
  | some last => rwa [h] at ht

theorem endsOpen_append_of_not_mem (s : String) {t : String} (some_last : t.toList ≠ [])
    (h : '\n' ∉ t.toList) : EndsOpen (s ++ t) := by
  unfold EndsOpen
  rw [String.toList_append, List.getLast?_append, List.getLast?_eq_some_getLast some_last]
  intro last
  exact h (Option.some.inj last ▸ List.getLast_mem some_last)

theorem endsOpen_append_repr (s : String) (n : Nat) : EndsOpen (s ++ n.repr) := by
  refine endsOpen_append_of_not_mem s ?_ fun h => ?_
  · rw [Nat.toList_repr]
    exact Nat.toDigits_ne_nil
  · rw [Nat.toList_repr] at h
    exact absurd (Nat.isDigit_of_mem_toDigits (by decide) (by decide) h) (by decide)

theorem endsOpen_join {texts : List String} (h : ∀ s ∈ texts, EndsOpen s) :
    EndsOpen (String.join texts) := by
  induction texts with
  | nil => rw [String.join_nil]; nofun
  | cons s texts ih =>
    rw [String.join_cons]
    exact endsOpen_append (h s List.mem_cons_self) (ih fun t ht => h t (List.mem_cons_of_mem s ht))

end Text

open Text (EndsOpen endsOpen_append endsOpen_append_of_not_mem)

namespace Json

end Json

theorem Chain.lineFeed_not_mem_text (entries : List Replacement) :
    '\n' ∉ (text entries).toList := by
  have code (c : Color) : '\n' ∉ c.hexDigits := fun h =>
    absurd (Color.isHexDigit_of_mem_hexDigits h) (by decide)
  rw [toList_text, List.mem_append, List.mem_flatMap]
  rintro (h | ⟨entry, -, h⟩)
  · exact absurd h (by decide)
  · simp [Replacement.body, code] at h

namespace Canvas

variable {c : Canvas} {p : Picture} {o : Mosaic.Options} {m : Mosaic}

theorem endsOpen_blend {d : Drawable} (h : ∃ cells, d.directives = Cell.chain cells) :
    EndsOpen (c.blend d) := by
  obtain ⟨cells, hd⟩ := h
  unfold blend
  refine endsOpen_append ?_ ?_
  · rw [hd]
    refine endsOpen_append_of_not_mem _ ?_ (Chain.lineFeed_not_mem_text _)
    rw [Cell.chain, Chain.toList_text]
    exact List.append_ne_nil_of_left_ne_nil (by decide) _
  · cases c.fade <;> decide

theorem endsOpen_compose {text : String} (hm : Mosaic.ofPicture p o = .ok m)
    (h : c.compose m = .ok text) : EndsOpen text := by
  obtain ⟨-, rfl⟩ := Mosaic.ofPicture_eq_ok_iff.mp hm
  obtain ⟨scale, -, rfl⟩ := Attempt.map_eq_ok_iff.mp h
  refine endsOpen_append (endsOpen_append (Text.endsOpen_append_repr _ _) ?_) ?_
  · refine Text.endsOpen_join fun s hs => ?_
    obtain ⟨d, hd, rfl⟩ := List.mem_map.mp hs
    obtain ⟨t, -, rfl⟩ := List.mem_map.mp hd
    exact endsOpen_blend ⟨_, rfl⟩
  · cases c.clearBackground <;> decide

end Canvas

end Recolor
