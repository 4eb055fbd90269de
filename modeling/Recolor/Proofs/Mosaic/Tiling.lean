import Recolor.Proofs.Mosaic.Encoding
import Recolor.Proofs.Picture.Put
import Recolor.Proofs.Slot.Marker

namespace Recolor

open Mosaic

theorem Mosaic.covering_succ {size : Nat} (positive : 0 < size) (n : Nat) :
    covering size (n + 1) = n / size + 1 := by
  rw [covering, Nat.add_right_comm, Nat.add_sub_cancel, Nat.add_div_right n positive]

def Slot.holding (x y : Nat) : Slot :=
  ⟨⟨x % 32, Nat.mod_lt x (by decide)⟩, ⟨y % 8, Nat.mod_lt y (by decide)⟩⟩

namespace Mosaic.Tile

variable {p : Picture} {o : Options} {t : Tile}

def holding (x y : Nat) : Tile := ⟨x / 32, y / 8⟩

def before (s t : Tile) : Prop :=
  s.column < t.column ∨ s.column = t.column ∧ s.row < t.row

def Shows (t : Tile) (p : Picture) (o : Options) : Prop :=
  ∃ x y c, p.fromBottom? x y = some c ∧ holding x y = t ∧ o.Shows c

def ofDrawable (d : Drawable) : Tile := ⟨d.tileColumn, d.tileRow⟩

def drawable (t : Tile) (p : Picture) (o : Options) : Drawable :=
  ⟨o.texture, Cell.chain (t.cells p o), Int32.ofNat t.left, Int32.ofNat t.bottom⟩

theorem place_iff {s : Slot} {x y : Nat} :
    t.left + s.column.val = x ∧ t.bottom + s.row.val = y ↔
      holding x y = t ∧ Slot.holding x y = s := by
  obtain ⟨column, row⟩ := t
  obtain ⟨⟨i, hi⟩, ⟨j, hj⟩⟩ := s
  simp only [left, bottom, Slot.tileWidth, Slot.tileHeight, holding, Slot.holding, mk.injEq,
    Slot.mk.injEq, Fin.mk.injEq]
  omega

theorem place_holding (x y : Nat) :
    (holding x y).left + (Slot.holding x y).column.val = x ∧
      (holding x y).bottom + (Slot.holding x y).row.val = y :=
  place_iff.mpr ⟨rfl, rfl⟩

theorem pixel?_holding (p : Picture) (x y : Nat) :
    (holding x y).pixel? p (Slot.holding x y) = p.fromBottom? x y := by
  rw [pixel?, (place_holding x y).1, (place_holding x y).2]

theorem mem_cells {s : Slot} {c : Color} :
    ⟨s, c⟩ ∈ t.cells p o ↔ (t.pixel? p s).bind o.encode? = some c := by
  simp only [cells, List.mem_filterMap, Option.map_eq_some_iff, Cell.mk.injEq]
  constructor
  · rintro ⟨_, -, _, h, rfl, rfl⟩
    exact h
  · intro h
    exact ⟨s, Slot.mem_all s, c, h, rfl, rfl⟩

theorem cells_pairwise (t : Tile) (p : Picture) (o : Options) :
    (t.cells p o).Pairwise fun a b => a.slot.before b.slot := by
  refine List.Pairwise.filterMap _ ?_ Slot.all_pairwise
  intro s s' before a ha b hb
  obtain ⟨_, -, rfl⟩ := Option.map_eq_some_iff.mp ha
  obtain ⟨_, -, rfl⟩ := Option.map_eq_some_iff.mp hb
  exact before

theorem length_cells_le (t : Tile) (p : Picture) (o : Options) :
    (t.cells p o).length ≤ 256 :=
  Slot.length_all ▸ List.length_filterMap_le ..

theorem any_visible_iff :
    ((t.cells p o).any fun cell => cell.color.isVisible) = true ↔ t.Shows p o := by
  rw [List.any_eq_true]
  constructor
  · rintro ⟨⟨s, d⟩, hd, visible⟩
    obtain ⟨c, hc, encoded⟩ := Option.bind_eq_some_iff.mp (mem_cells.mp hd)
    refine ⟨_, _, c, hc, (place_iff.mp ⟨rfl, rfl⟩).1, ?_⟩
    exact Options.exists_visible_iff.mp ⟨d, encoded, visible⟩
  · rintro ⟨x, y, c, hc, rfl, shows⟩
    obtain ⟨d, encoded, visible⟩ := Options.exists_visible_iff.mpr shows
    refine ⟨⟨Slot.holding x y, d⟩, mem_cells.mpr ?_, visible⟩
    rw [pixel?_holding, hc, Option.bind_some, encoded]

instance (t : Tile) (p : Picture) (o : Options) : Decidable (t.Shows p o) :=
  decidable_of_iff _ any_visible_iff

theorem all_pairwise (p : Picture) : (all p).Pairwise before := by
  unfold all
  split
  · exact .nil
  · exact pairwise_grid List.pairwise_lt_range List.pairwise_lt_range .inl fun h => .inr ⟨rfl, h⟩

theorem ne_of_before {s t : Tile} (h : s.before t) : s ≠ t := by
  rintro rfl
  rcases h with h | ⟨-, h⟩ <;> exact Nat.lt_irrefl _ h

theorem mem_all : t ∈ all p ↔ t.left < p.columns ∧ t.bottom < p.rows := by
  obtain ⟨column, row⟩ := t
  have grid : (32 * column < p.columns ∧ 8 * row < p.rows) ↔
      column < covering 32 p.columns ∧ row < covering 8 p.rows := by
    unfold covering
    omega
  change _ ↔ 32 * column < p.columns ∧ 8 * row < p.rows
  unfold all
  split
  · next empty =>
    have none : ¬ (32 * column < p.columns ∧ 8 * row < p.rows) := by
      rcases Nat.mul_eq_zero.mp empty with h | h <;> rw [h] <;> omega
    simp [none]
  · rw [grid]
    simp [Slot.tileWidth, Slot.tileHeight]

end Mosaic.Tile

namespace Mosaic

variable {p : Picture} {o : Options} {t : Tile}

def kept (p : Picture) (o : Options) : List Tile :=
  (Tile.all p).filter fun t => (t.cells p o).any fun cell => cell.color.isVisible

def woven (p : Picture) (o : Options) : Mosaic where
  drawables := (kept p o).map fun t => t.drawable p o
  width := p.width
  height := p.height
  offsetX := Binary64.ofInt o.handX.toInt
  offsetY := Binary64.ofInt o.handY.toInt

theorem mem_kept : t ∈ kept p o ↔ t.Shows p o := by
  rw [kept, List.mem_filter, Tile.any_visible_iff, and_iff_right_iff_imp]
  rintro ⟨x, y, c, hc, rfl, -⟩
  have inside := Picture.lt_of_fromBottom? hc
  have place := Tile.place_holding x y
  exact Tile.mem_all.mpr ⟨by omega, by omega⟩

theorem mem_all_of_mem_kept (h : t ∈ kept p o) : t ∈ Tile.all p := (List.mem_filter.mp h).1

theorem kept_congr {q : Picture} {o' : Options} (all : Tile.all q = Tile.all p)
    (shows : ∀ t, Tile.Shows t q o' ↔ Tile.Shows t p o) : kept q o' = kept p o := by
  rw [kept, kept, all]
  refine List.filter_congr fun t _ => ?_
  rw [Bool.eq_iff_iff, Tile.any_visible_iff, Tile.any_visible_iff, shows]

theorem kept_pairwise (p : Picture) (o : Options) : (kept p o).Pairwise Tile.before :=
  (Tile.all_pairwise p).filter _

theorem nodup_kept (p : Picture) (o : Options) : (kept p o).Nodup :=
  (kept_pairwise p o).imp Tile.ne_of_before

theorem filterMap_drawable? (p : Picture) (o : Options) :
    (Tile.all p).filterMap (fun t => t.drawable? p o) =
      (kept p o).map fun t => t.drawable p o := by
  rw [kept, ← List.filterMap_eq_map, List.filterMap_filter]
  rfl

theorem ofPicture_of_le (small : p.area ≤ pixelLimit) : ofPicture p o = .ok (woven p o) := by
  rw [ofPicture, checkSize_of_le small, filterMap_drawable?]
  rfl

theorem ofPicture_of_lt (large : pixelLimit < p.area) :
    ofPicture p o = .error (.tooLarge p.width p.height) := by
  rw [ofPicture, checkSize_of_lt large]
  rfl

theorem ofPicture_eq_ok_iff {m : Mosaic} :
    ofPicture p o = .ok m ↔ p.area ≤ pixelLimit ∧ m = woven p o := by
  rcases Nat.lt_or_ge pixelLimit p.area with large | small
  · rw [ofPicture_of_lt large]
    exact ⟨nofun, fun ⟨le, _⟩ => absurd large (Nat.not_lt.mpr le)⟩
  · rw [ofPicture_of_le small, Except.ok.injEq, and_iff_right small, eq_comm]

namespace Tile

theorem position_le (h : p.area ≤ pixelLimit) (ht : t ∈ all p) :
    t.left ≤ pixelLimit ∧ t.bottom ≤ pixelLimit := by
  obtain ⟨hl, hb⟩ := mem_all.mp ht
  have columns : p.columns ≤ p.area := Nat.le_mul_of_pos_right _ (by omega)
  have rows : p.rows ≤ p.area := Nat.le_mul_of_pos_left _ (by omega)
  omega

theorem toInt_ofNat_of_le {n : Nat} (h : n ≤ pixelLimit) : (Int32.ofNat n).toInt = n :=
  Int32.toInt_ofNat_of_lt (Nat.lt_of_le_of_lt h (by decide))

theorem x_drawable (h : p.area ≤ pixelLimit) (ht : t ∈ all p) :
    (t.drawable p o).x.toInt = t.left :=
  toInt_ofNat_of_le (position_le h ht).1

theorem y_drawable (h : p.area ≤ pixelLimit) (ht : t ∈ all p) :
    (t.drawable p o).y.toInt = t.bottom :=
  toInt_ofNat_of_le (position_le h ht).2

theorem ofDrawable_drawable (h : p.area ≤ pixelLimit) (ht : t ∈ all p) :
    ofDrawable (t.drawable p o) = t := by
  rw [ofDrawable, Drawable.tileColumn, Drawable.tileRow, x_drawable h ht, y_drawable h ht,
    Int.toNat_natCast, Int.toNat_natCast, left, bottom, Nat.mul_div_cancel_left _ (by decide),
    Nat.mul_div_cancel_left _ (by decide)]

theorem lt_count_of_mem_all (ht : t ∈ all p) :
    t.column < (p.columns + 31) / 32 ∧ t.row < (p.rows + 7) / 8 := by
  have inside : 32 * t.column < p.columns ∧ 8 * t.row < p.rows := mem_all.mp ht
  omega

end Tile

theorem map_ofDrawable_woven (o : Options) (h : p.area ≤ pixelLimit) :
    (woven p o).drawables.map Tile.ofDrawable = kept p o := by
  have same : ∀ t ∈ kept p o, Tile.ofDrawable (t.drawable p o) = t := fun t ht =>
    Tile.ofDrawable_drawable h (mem_all_of_mem_kept ht)
  rw [woven, List.map_map]
  exact (List.map_congr_left same).trans (List.map_id _)

theorem position_of_mem_woven (h : p.area ≤ pixelLimit) {d : Drawable}
    (hd : d ∈ (woven p o).drawables) :
    d.x.toInt = 32 * d.tileColumn ∧ d.y.toInt = 8 * d.tileRow ∧
      d.tileColumn < (p.columns + 31) / 32 ∧ d.tileRow < (p.rows + 7) / 8 := by
  obtain ⟨t, ht, rfl⟩ := List.mem_map.mp hd
  have hall := mem_all_of_mem_kept ht
  have same := Tile.ofDrawable_drawable (o := o) h hall
  have column : (t.drawable p o).tileColumn = t.column := congrArg Tile.column same
  have row : (t.drawable p o).tileRow = t.row := congrArg Tile.row same
  have inside := Tile.lt_count_of_mem_all hall
  rw [column, row, Tile.x_drawable h hall, Tile.y_drawable h hall]
  exact ⟨Int.natCast_mul .., Int.natCast_mul .., inside.1, inside.2⟩

theorem eq_of_tile_eq (h : p.area ≤ pixelLimit) {j k : Nat} {d e : Drawable}
    (hd : (woven p o).drawables[j]? = some d) (he : (woven p o).drawables[k]? = some e)
    (column : d.tileColumn = e.tileColumn) (row : d.tileRow = e.tileRow) : j = k := by
  have nodup : ((woven p o).drawables.map Tile.ofDrawable).Nodup := by
    rw [map_ofDrawable_woven o h]
    exact nodup_kept p o
  have inside : j < ((woven p o).drawables.map Tile.ofDrawable).length := by
    rw [List.length_map]
    exact (List.getElem?_eq_some_iff.mp hd).1
  refine (List.getElem?_inj inside nodup).mp ?_
  rw [List.getElem?_map, List.getElem?_map, hd, he, Option.map_some, Option.map_some,
    Tile.ofDrawable, Tile.ofDrawable, column, row]

theorem drawables_ofPicture (p : Picture) (o : Options)
    (h : p.width.toNat * p.height.toNat ≤ 32768) :
    ∃ m, ofPicture p o = .ok m ∧
      (∀ d ∈ m.drawables, d.x.toInt = 32 * d.tileColumn ∧ d.y.toInt = 8 * d.tileRow ∧
        d.tileColumn < (p.columns + 31) / 32 ∧ d.tileRow < (p.rows + 7) / 8) ∧
      m.drawables.Pairwise (fun d e => d.tileColumn < e.tileColumn ∨
        d.tileColumn = e.tileColumn ∧ d.tileRow < e.tileRow) ∧
      (∀ column row, (∃ d ∈ m.drawables, d.tileColumn = column ∧ d.tileRow = row) ↔
        ∃ x y c, p.fromBottom? x y = some c ∧ x / 32 = column ∧ y / 8 = row ∧
          1 < c.alpha ∧ o.ignored ≠ some c) ∧
      ∀ d ∈ m.drawables, d.texture = o.texture := by
  replace h : p.area ≤ pixelLimit := h
  refine ⟨woven p o, ofPicture_of_le h, fun d => position_of_mem_woven h, ?_, ?_, ?_⟩
  · exact List.pairwise_map.mp ((map_ofDrawable_woven o h).symm ▸ kept_pairwise p o)
  · intro column row
    have shown : (⟨column, row⟩ : Tile) ∈ (woven p o).drawables.map Tile.ofDrawable ↔
        Tile.Shows ⟨column, row⟩ p o := by
      rw [map_ofDrawable_woven o h, mem_kept]
    simpa only [List.mem_map, Tile.ofDrawable, Tile.Shows, Tile.holding, Tile.mk.injEq,
      Options.Shows, and_assoc] using shown
  · intro d hd
    obtain ⟨t, -, rfl⟩ := List.mem_map.mp hd
    rfl

theorem drawables_ofPicture_white :
    (33 : UInt32).toNat * (9 : UInt32).toNat ≤ 32768 ∧
      ∃ m, ofPicture (Picture.filled 33 9 Color.white) Options.default = .ok m ∧
        ∃ d ∈ m.drawables, d.tileColumn = 1 ∧ d.tileRow = 1 := by
  have small : (33 : UInt32).toNat * (9 : UInt32).toNat ≤ 32768 := by decide
  obtain ⟨m, hm, -, -, shown, -⟩ :=
    drawables_ofPicture (Picture.filled 33 9 Color.white) Options.default small
  have corner : (Picture.filled 33 9 Color.white).fromBottom? 32 8 = some Color.white := by
    rw [Picture.fromBottom?_filled]
    rfl
  exact ⟨small, m, hm, (shown 1 1).mpr ⟨32, 8, _, corner, rfl, rfl, by decide, nofun⟩⟩

end Mosaic

end Recolor
