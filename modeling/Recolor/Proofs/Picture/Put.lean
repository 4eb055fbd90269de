import Recolor.Picture

namespace Recolor.Picture

theorem columns_put (p : Picture) (x y : Nat) (color : Color) :
    (p.put x y color).columns = p.columns := by
  rw [columns, width_put, columns]

theorem rows_put (p : Picture) (x y : Nat) (color : Color) :
    (p.put x y color).rows = p.rows := by
  rw [rows, height_put, rows]

theorem put_of_lt {w h : UInt32} {pixels : Vector Color (w.toNat * h.toNat)} {x y : Nat}
    (inside : x < w.toNat ∧ y < h.toNat) (color : Color) :
    put ⟨w, h, pixels⟩ x y color = ⟨w, h, pixels.setIfInBounds (y * w.toNat + x) color⟩ :=
  if_pos inside

theorem put_of_not_lt {p : Picture} {x y : Nat} (outside : ¬ (x < p.columns ∧ y < p.rows))
    (color : Color) : p.put x y color = p :=
  if_neg outside

theorem pixel?_put (p : Picture) (x y x' y' : Nat) (color : Color) :
    (p.put x y color).pixel? x' y' =
      if x' = x ∧ y' = y then (p.pixel? x' y').map fun _ => color else p.pixel? x' y' := by
  by_cases seen : x' < p.columns ∧ y' < p.rows
  · obtain ⟨w, h, pixels⟩ := p
    change x' < w.toNat ∧ y' < h.toNat at seen
    have hi : y' * w.toNat + x' < w.toNat * h.toNat := index_lt seen.1 seen.2
    by_cases same : x' = x ∧ y' = y
    · obtain ⟨rfl, rfl⟩ := same
      rw [put_of_lt seen]
      simp [pixel?, columns, rows, seen, hi]
    · by_cases inside : x < w.toNat ∧ y < h.toNat
      · have apart : y * w.toNat + x ≠ y' * w.toNat + x' := fun heq =>
          same ((index_inj seen.1 inside.1 heq.symm).imp id id)
        rw [put_of_lt inside]
        simp [pixel?, columns, rows, seen, same, apart]
      · simp [put, inside, same]
  · have outside : ∀ q : Picture, q.columns = p.columns → q.rows = p.rows →
        q.pixel? x' y' = none := by
      intro q hc hr
      rw [pixel?, hc, hr, if_neg seen]
    rw [outside _ (columns_put ..) (rows_put ..), outside p rfl rfl]
    simp

theorem fromBottom?_isSome (p : Picture) (x y : Nat) :
    (p.fromBottom? x y).isSome = true ↔ x < p.columns ∧ y < p.rows := by
  unfold fromBottom?
  by_cases h : y < p.rows
  · rw [if_pos h, pixel?_isSome]
    omega
  · simp [h]

theorem lt_of_fromBottom? {p : Picture} {x y : Nat} {c : Color} (h : p.fromBottom? x y = some c) :
    x < p.columns ∧ y < p.rows :=
  (fromBottom?_isSome p x y).mp (h ▸ rfl)

theorem pixel?_eq_fromBottom? {p : Picture} (x : Nat) {y : Nat} (h : y < p.rows) :
    p.pixel? x y = p.fromBottom? x (p.rows - 1 - y) := by
  have hy : p.rows - 1 - (p.rows - 1 - y) = y := by omega
  rw [fromBottom?, if_pos (by omega), hy]

theorem pixel?_eq_some_iff {p : Picture} {x y : Nat} {c : Color} :
    p.pixel? x y = some c ↔ y < p.rows ∧ p.fromBottom? x (p.rows - 1 - y) = some c := by
  constructor
  · intro seen
    have inside := (pixel?_isSome p x y).mp (seen ▸ rfl)
    exact ⟨inside.2, pixel?_eq_fromBottom? x inside.2 ▸ seen⟩
  · rintro ⟨below, seen⟩
    rw [pixel?_eq_fromBottom? x below, seen]

theorem fromBottom?_filled (width height : UInt32) (color : Color) (x y : Nat) :
    (filled width height color).fromBottom? x y =
      if x < width.toNat ∧ y < height.toNat then some color else none := by
  unfold fromBottom?
  rw [pixel?_filled]
  change (if y < height.toNat then
    if x < width.toNat ∧ height.toNat - 1 - y < height.toNat then some color else none
      else none) = _
  by_cases hy : y < height.toNat
  · have below : height.toNat - 1 - y < height.toNat := by omega
    simp only [hy, below, and_true, if_true]
  · simp [hy]

theorem putFromBottom_of_not_lt {p : Picture} {x y : Nat}
    (outside : ¬ (x < p.columns ∧ y < p.rows)) (color : Color) :
    p.putFromBottom x y color = p := by
  unfold putFromBottom
  split
  · next low => exact put_of_not_lt (fun inside => outside ⟨inside.1, low⟩) color
  · rfl

theorem width_putFromBottom (p : Picture) (x y : Nat) (color : Color) :
    (p.putFromBottom x y color).width = p.width := by
  unfold putFromBottom
  split
  · exact width_put ..
  · rfl

theorem height_putFromBottom (p : Picture) (x y : Nat) (color : Color) :
    (p.putFromBottom x y color).height = p.height := by
  unfold putFromBottom
  split
  · exact height_put ..
  · rfl

theorem fromBottom?_putFromBottom (p : Picture) (x y x' y' : Nat) (color : Color) :
    (p.putFromBottom x y color).fromBottom? x' y' =
      if x' = x ∧ y' = y then (p.fromBottom? x' y').map fun _ => color
      else p.fromBottom? x' y' := by
  by_cases hy : y < p.rows
  · rw [putFromBottom, if_pos hy, fromBottom?, fromBottom?, rows_put, pixel?_put]
    by_cases hy' : y' < p.rows
    · have row : p.rows - 1 - y' = p.rows - 1 - y ↔ y' = y := by omega
      simp only [hy', if_true, row]
    · simp [hy']
  · rw [putFromBottom, if_neg hy]
    by_cases same : x' = x ∧ y' = y
    · have none : p.fromBottom? x' y' = none := by rw [fromBottom?, same.2, if_neg hy]
      simp [none]
    · rw [if_neg same]

end Recolor.Picture
