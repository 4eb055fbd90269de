import Mathlib.Data.List.Forall2
import Recolor.Item.Icon
import Recolor.Proofs.Chain.Cells
import Recolor.Proofs.Mosaic.Tiling

namespace Recolor

open Mosaic

namespace IconEntry

theorem remainder?_eq {size length tile : Nat} (positive : 0 < size)
    (inside : size * tile < length) :
    remainder? size length tile =
      if min size (length - size * tile) = size then none
      else some (min size (length - size * tile)) := by
  obtain ⟨before, rfl⟩ := Nat.exists_eq_add_of_lt inside
  have shown : size * tile + before + 1 - size * tile = before + 1 := by omega
  have last : tile = covering size (size * tile + before + 1) - 1 ↔ before < size := by
    rw [covering_succ positive, Nat.mul_add_div positive, Nat.add_sub_cancel, Nat.left_eq_add,
      Nat.div_eq_zero_iff_lt positive]
  have rest : (size * tile + before + 1) % size = (before + 1) % size := by
    rw [Nat.add_assoc, Nat.mul_add_mod]
  simp only [remainder?, last, rest, shown]
  rcases Nat.lt_trichotomy (before + 1) size with partly | full | beyond
  · have less : before < size ∧ before + 1 ≠ 0 := by omega
    rw [Nat.mod_eq_of_lt partly, Nat.min_eq_right (Nat.le_of_lt partly), if_pos less,
      if_neg (Nat.ne_of_lt partly)]
  · rw [full, Nat.mod_self, Nat.min_self, if_neg fun h => h.2 rfl, if_pos rfl]
  · rw [Nat.min_eq_left (Nat.le_of_lt beyond), if_neg fun h => by omega, if_pos rfl]

theorem cropOf_of_remainder? {m : Mosaic} {d : Drawable} {width height : Nat}
    (hw : remainder? Slot.tileWidth m.width.toNat d.tileColumn =
      if width = 32 then none else some width)
    (hh : remainder? Slot.tileHeight m.height.toNat d.tileRow =
      if height = 8 then none else some height) :
    cropOf m d = if width = 32 ∧ height = 8 then "" else crop width height := by
  rw [cropOf, hw, hh]
  by_cases wide : width = 32
  · by_cases high : height = 8
    · simp [wide, high]
    · simp [wide, high, Slot.tileWidth]
  · by_cases high : height = 8
    · simp [wide, high, Slot.tileHeight]
    · simp [wide, high]

end IconEntry

namespace Mosaic.Tile

variable {p : Picture} {o : Options} {t : Tile}

def shownWidth (t : Tile) (p : Picture) : Nat := min Slot.tileWidth (p.columns - t.left)

def shownHeight (t : Tile) (p : Picture) : Nat := min Slot.tileHeight (p.rows - t.bottom)

theorem shown_pos (ht : t ∈ all p) : 1 ≤ t.shownWidth p ∧ 1 ≤ t.shownHeight p := by
  have inside : 32 * t.column < p.columns ∧ 8 * t.row < p.rows := mem_all.mp ht
  unfold shownWidth shownHeight left bottom Slot.tileWidth Slot.tileHeight
  omega

theorem lt_shown_of_mem_cells {cell : Cell} (h : cell ∈ t.cells p o) :
    cell.slot.column.val < t.shownWidth p ∧ cell.slot.row.val < t.shownHeight p := by
  obtain ⟨c, hc, -⟩ := Option.bind_eq_some_iff.mp (mem_cells.mp h)
  have inside := Picture.lt_of_fromBottom? hc
  have column := cell.slot.column.isLt
  have row := cell.slot.row.isLt
  unfold shownWidth shownHeight Slot.tileWidth Slot.tileHeight
  omega

theorem cropOf_drawable (h : p.area ≤ pixelLimit) (ht : t ∈ all p) :
    IconEntry.cropOf (woven p o) (t.drawable p o) =
      if t.shownWidth p = 32 ∧ t.shownHeight p = 8 then ""
      else IconEntry.crop (t.shownWidth p) (t.shownHeight p) := by
  have same := ofDrawable_drawable (o := o) h ht
  have column : (t.drawable p o).tileColumn = t.column := congrArg Tile.column same
  have row : (t.drawable p o).tileRow = t.row := congrArg Tile.row same
  have inside := mem_all.mp ht
  have width : IconEntry.remainder? Slot.tileWidth (woven p o).width.toNat t.column = _ :=
    IconEntry.remainder?_eq (by decide) inside.1
  have height : IconEntry.remainder? Slot.tileHeight (woven p o).height.toNat t.row = _ :=
    IconEntry.remainder?_eq (by decide) inside.2
  exact IconEntry.cropOf_of_remainder? (column ▸ width) (row ▸ height)

end Mosaic.Tile

namespace Mosaic

variable {p : Picture} {o : Options} {m : Mosaic}

theorem icon_ofPicture (h : ofPicture p o = .ok m) :
    List.Forall₂ (fun d e => e.x = d.x ∧ e.y = d.y ∧
      ∃ width height : Nat, (width : Int) = min 32 ((p.width.toNat : Int) - d.x.toInt) ∧
        (height : Int) = min 8 ((p.height.toNat : Int) - d.y.toInt) ∧ 1 ≤ width ∧ 1 ≤ height ∧
        e.image = (if width = 32 ∧ height = 8 then d.image
          else d.image ++ "?crop;0;0;" ++ width.repr ++ ";" ++ height.repr) ∧
        ∃ cells, Cell.ofChain d.directives = .ok cells ∧
          ∀ cell ∈ cells, cell.slot.column < width ∧ cell.slot.row < height)
      m.drawables m.icon := by
  obtain ⟨small, rfl⟩ := ofPicture_eq_ok_iff.mp h
  rw [icon, List.forall₂_map_right_iff, List.forall₂_same]
  intro d hd
  obtain ⟨t, ht, rfl⟩ := List.mem_map.mp hd
  have hall := mem_all_of_mem_kept ht
  have inside : t.left < p.width.toNat ∧ t.bottom < p.height.toNat := Tile.mem_all.mp hall
  have shown := Tile.shown_pos hall
  refine ⟨rfl, rfl, t.shownWidth p, t.shownHeight p, ?_, ?_, shown.1, shown.2, ?_,
    t.cells p o, Cell.ofChain_chain _, fun cell => Tile.lt_shown_of_mem_cells⟩
  · rw [Tile.x_drawable small hall, Tile.shownWidth, Slot.tileWidth, Picture.columns]
    omega
  · rw [Tile.y_drawable small hall, Tile.shownHeight, Slot.tileHeight, Picture.rows]
    omega
  · rw [IconEntry.ofDrawable, Tile.cropOf_drawable small hall]
    split
    · exact String.append_empty
    · simp [IconEntry.crop, String.append_assoc]

theorem icon_ofPicture_white :
    ∃ m, ofPicture (Picture.filled 33 9 Color.white) Options.default = .ok m ∧
      ∃ d ∈ m.drawables, d.x = 32 ∧ d.y = 8 ∧
        ∃ e ∈ m.icon, e.x = 32 ∧ e.y = 8 ∧ e.image = d.image ++ "?crop;0;0;1;1" := by
  let p := Picture.filled 33 9 Color.white
  have small : p.area ≤ pixelLimit := by decide
  have corner : p.fromBottom? 32 8 = some Color.white := by
    rw [Picture.fromBottom?_filled]
    rfl
  have shown : (⟨1, 1⟩ : Tile) ∈ kept p Options.default :=
    mem_kept.mpr ⟨32, 8, _, corner, rfl, by decide, nofun⟩
  have hm : ofPicture p Options.default = .ok (woven p Options.default) := ofPicture_of_le small
  obtain ⟨d, hd, dx, dy⟩ : ∃ d ∈ (woven p Options.default).drawables, d.x = 32 ∧ d.y = 8 :=
    ⟨_, List.mem_map_of_mem shown, rfl, rfl⟩
  have entries := icon_ofPicture hm
  obtain ⟨⟨k, hk⟩, atPlace⟩ := List.mem_iff_get.mp hd
  obtain ⟨x, y, width, height, hw, hh, -, -, image, -⟩ := entries.get hk (entries.length_eq ▸ hk)
  rw [atPlace, dx] at x hw
  rw [atPlace, dy] at y hh
  obtain rfl : width = 1 := Int.ofNat.inj (hw.trans (by decide))
  obtain rfl : height = 1 := Int.ofNat.inj (hh.trans (by decide))
  have crop : "?crop;0;0;" ++ (Nat.repr 1 ++ (";" ++ Nat.repr 1)) = "?crop;0;0;1;1" := by decide
  rw [atPlace, if_neg (by decide), String.append_assoc, String.append_assoc, String.append_assoc,
    crop] at image
  exact ⟨_, hm, d, hd, dx, dy, _, List.get_mem _ _, x, y, image⟩

end Mosaic

end Recolor
