import Recolor.Mosaic.Paint
import Recolor.Proofs.Picture.Put

namespace Recolor.Mosaic

namespace Stroke

def colorAt? (x y : Nat) (s : Stroke) : Option Color :=
  if x = s.column ∧ y = s.row then some s.color else none

theorem colorAt?_eq_some_iff {x y : Nat} {s : Stroke} {c : Color} :
    s.colorAt? x y = some c ↔ s = ⟨x, y, c⟩ := by
  obtain ⟨column, row, color⟩ := s
  simp only [colorAt?, Option.ite_none_right_eq_some, Option.some.injEq, mk.injEq]
  constructor
  · rintro ⟨⟨rfl, rfl⟩, rfl⟩
    exact ⟨rfl, rfl, rfl⟩
  · rintro ⟨rfl, rfl, rfl⟩
    exact ⟨⟨rfl, rfl⟩, rfl⟩

theorem fromBottom?_paint (p : Picture) (s : Stroke) (x y : Nat) :
    (paint p s).fromBottom? x y =
      (p.fromBottom? x y).map fun ground => (s.colorAt? x y).getD ground := by
  rw [paint, Picture.fromBottom?_putFromBottom]
  by_cases h : x = s.column ∧ y = s.row
  · rw [colorAt?, if_pos h, if_pos h]
    rfl
  · rw [colorAt?, if_neg h, if_neg h]
    exact Option.map_id'.symm

end Stroke

def topmost? (strokes : List Stroke) (x y : Nat) : Option Color :=
  (strokes.filterMap (Stroke.colorAt? x y)).getLast?

example : topmost? [⟨0, 0, Color.white⟩, ⟨1, 0, Color.clear⟩, ⟨0, 0, Color.nearWhite⟩] 0 0 =
    some Color.nearWhite := rfl

theorem topmost?_cons (s : Stroke) (strokes : List Stroke) (x y : Nat) :
    topmost? (s :: strokes) x y = (topmost? strokes x y).or (s.colorAt? x y) := by
  unfold topmost?
  cases h : s.colorAt? x y with
  | none => rw [List.filterMap_cons_none h, Option.or_none]
  | some c =>
    rw [List.filterMap_cons_some h, List.getLast?_cons]
    cases (strokes.filterMap (Stroke.colorAt? x y)).getLast? <;> rfl

theorem topmost?_eq_none {strokes : List Stroke} {x y : Nat}
    (h : ∀ c, ⟨x, y, c⟩ ∉ strokes) : topmost? strokes x y = none := by
  rw [topmost?, List.getLast?_eq_none_iff, List.filterMap_eq_nil_iff]
  intro s hs
  cases hc : s.colorAt? x y with
  | none => rfl
  | some c => exact absurd (Stroke.colorAt?_eq_some_iff.mp hc ▸ hs) (h c)

theorem mem_of_topmost? {strokes : List Stroke} {x y : Nat} {c : Color}
    (h : topmost? strokes x y = some c) : ⟨x, y, c⟩ ∈ strokes := by
  obtain ⟨s, hs, hc⟩ := List.mem_filterMap.mp (List.mem_of_getLast? h)
  exact Stroke.colorAt?_eq_some_iff.mp hc ▸ hs

theorem exists_topmost? {strokes : List Stroke} {x y : Nat} {c : Color}
    (h : ⟨x, y, c⟩ ∈ strokes) : ∃ d, topmost? strokes x y = some d := by
  rw [← Option.isSome_iff_exists, topmost?, List.getLast?_isSome]
  exact List.ne_nil_of_mem (List.mem_filterMap.mpr ⟨_, h, Stroke.colorAt?_eq_some_iff.mpr rfl⟩)

theorem topmost?_eq {strokes : List Stroke} {x y : Nat} {e : Option Color}
    (h : ∀ c, ⟨x, y, c⟩ ∈ strokes ↔ e = some c) : topmost? strokes x y = e := by
  cases e with
  | none => exact topmost?_eq_none fun c hc => nomatch (h c).mp hc
  | some c =>
    obtain ⟨d, hd⟩ := exists_topmost? ((h c).mpr rfl)
    rw [hd, (h d).mp (mem_of_topmost? hd)]

theorem fromBottom?_foldl_paint (strokes : List Stroke) (p : Picture) (x y : Nat) :
    (strokes.foldl Stroke.paint p).fromBottom? x y =
      (p.fromBottom? x y).map fun ground => (topmost? strokes x y).getD ground := by
  induction strokes generalizing p with
  | nil => exact Option.map_id'.symm
  | cons s strokes ih =>
    rw [List.foldl_cons, ih, Stroke.fromBottom?_paint, Option.map_map, topmost?_cons]
    congr 1
    funext ground
    cases topmost? strokes x y <;> rfl

theorem size_foldl_paint (strokes : List Stroke) (p : Picture) :
    (strokes.foldl Stroke.paint p).width = p.width ∧
      (strokes.foldl Stroke.paint p).height = p.height := by
  induction strokes generalizing p with
  | nil => exact ⟨rfl, rfl⟩
  | cons s strokes ih =>
    obtain ⟨width, height⟩ := ih (s.paint p)
    exact ⟨width.trans (Picture.width_putFromBottom ..),
      height.trans (Picture.height_putFromBottom ..)⟩

theorem strokesOfAll_map {A : Type} {xs : List A} {drawable : A → Drawable}
    {strokes : A → List Stroke} (h : ∀ x ∈ xs, strokesOf (drawable x) = .ok (strokes x)) :
    strokesOfAll (xs.map drawable) = .ok (xs.flatMap strokes) := by
  induction xs with
  | nil => rfl
  | cons x xs ih =>
    rw [List.map_cons, strokesOfAll, h x List.mem_cons_self,
      ih fun y hy => h y (List.mem_cons_of_mem x hy)]
    rfl

end Recolor.Mosaic
