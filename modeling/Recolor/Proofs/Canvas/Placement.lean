import Mathlib
import Recolor.Proofs.Canvas.Decomposition
import Recolor.Proofs.Mosaic.LastEntry
import Recolor.Proofs.Mosaic.Rendering

namespace Recolor

open Mosaic

theorem Mosaic.covering_le_iff {size : Nat} (positive : 0 < size) {length count : Nat} :
    covering size length ≤ count ↔ length ≤ count * size := by
  rw [covering, Nat.div_le_iff_le_mul_add_pred positive, Nat.mul_comm]
  omega

namespace Canvas

variable {c : Canvas} {m : Mosaic} {p : Picture} {o : Options} {t t' : Tile} {cell cell' : Cell}

def Fits (c : Canvas) (m : Mosaic) (scale : Nat) : Prop :=
  m.width.toNat ≤ scale * c.baseScale.toNat ∧ m.height.toNat ≤ scale * c.baseScale.toNat

theorem covering_max_le_iff (positive : 0 < c.baseScale.toNat) {scale : Nat} :
    covering c.baseScale.toNat (max m.width.toNat m.height.toNat) ≤ scale ↔ c.Fits m scale := by
  rw [covering_le_iff positive, Nat.max_le, Fits]

theorem isLeast_of_scale {scale : Nat} (h : c.scale m = .ok scale) :
    IsLeast {s | c.Fits m s} scale := by
  unfold Canvas.scale at h
  split at h
  · cases h
  · next nonzero =>
    cases h
    have positive := Word.pos_of_ne_zero nonzero
    exact ⟨(covering_max_le_iff positive).mp (Nat.le_refl _),
      fun s fits => (covering_max_le_iff positive).mpr fits⟩

theorem pos_of_fits {scale : Nat} (sized : 0 < m.width ∨ 0 < m.height) (h : c.Fits m scale) :
    0 < scale := by
  rcases sized with wide | high
  · exact Nat.pos_of_mul_pos_right (Nat.lt_of_lt_of_le (UInt32.lt_iff_toNat_lt.mp wide) h.1)
  · exact Nat.pos_of_mul_pos_right (Nat.lt_of_lt_of_le (UInt32.lt_iff_toNat_lt.mp high) h.2)

theorem not_fits_pred {scale : Nat} (sized : 0 < m.width ∨ 0 < m.height)
    (h : IsLeast {s | c.Fits m s} scale) : ¬ c.Fits m (scale - 1) := by
  intro fits
  have positive : 0 < scale := pos_of_fits sized h.1
  have least : scale ≤ scale - 1 := h.2 fits
  omega

def place (e : Drawable × Cell) : Int × Int :=
  (e.1.x.toInt + e.2.slot.column.val, e.1.y.toInt + e.2.slot.row.val)

theorem place_drawable (h : p.area ≤ pixelLimit) (ht : t ∈ Tile.all p) :
    place (t.drawable p o, cell) =
      (↑(t.left + cell.slot.column.val), ↑(t.bottom + cell.slot.row.val)) := by
  rw [place, Tile.x_drawable h ht, Tile.y_drawable h ht, Int.natCast_add, Int.natCast_add]

theorem eq_of_place_eq (h : p.area ≤ pixelLimit) (ht : t ∈ Tile.all p) (ht' : t' ∈ Tile.all p)
    (same : place (t.drawable p o, cell) = place (t'.drawable p o, cell')) :
    t = t' ∧ cell.slot = cell'.slot := by
  rw [place_drawable h ht, place_drawable h ht', Prod.mk.injEq, Int.natCast_inj,
    Int.natCast_inj] at same
  -- The place tells the tile that holds it, and the slot.
  obtain ⟨tile, slot⟩ := Tile.place_iff.mp same
  obtain ⟨tile', slot'⟩ := Tile.place_iff (t := t').mp ⟨rfl, rfl⟩
  exact ⟨tile.symm.trans tile', slot.symm.trans slot'⟩

theorem entries_woven (p : Picture) (o : Options) :
    entries (woven p o).drawables ((kept p o).map fun t => t.cells p o) =
      (kept p o).flatMap fun t => (t.cells p o).map fun cell => (t.drawable p o, cell) := by
  rw [entries, woven, List.zip_map', List.flatMap_map]

theorem decoded_woven (p : Picture) (o : Options) :
    List.Forall₂ (fun d cells => Cell.ofChain d.directives = .ok cells) (woven p o).drawables
      ((kept p o).map fun t => t.cells p o) := by
  rw [woven, List.forall₂_map_left_iff, List.forall₂_map_right_iff, List.forall₂_same]
  exact fun t _ => Cell.ofChain_chain _

theorem nodup_places (h : p.area ≤ pixelLimit) :
    (((kept p o).flatMap fun t => (t.cells p o).map fun cell => (t.drawable p o, cell)).map
      place).Nodup := by
  refine List.pairwise_map.mpr (List.pairwise_flatMap.mpr ⟨fun t ht => ?_, ?_⟩)
  · have hall := mem_all_of_mem_kept ht
    refine List.pairwise_map.mpr ((t.cells_pairwise p o).imp fun before same => ?_)
    exact Slot.ne_of_before before (eq_of_place_eq h hall hall same).2
  · refine (kept_pairwise p o).imp_of_mem fun ht ht' before e he e' he' same => ?_
    obtain ⟨cell, -, rfl⟩ := List.mem_map.mp he
    obtain ⟨cell', -, rfl⟩ := List.mem_map.mp he'
    have tile := (eq_of_place_eq h (mem_all_of_mem_kept ht) (mem_all_of_mem_kept ht') same).1
    exact Tile.ne_of_before before tile

theorem nodup_offsets (h : p.area ≤ pixelLimit) (o : Options) :
    ((woven p o).drawables.map fun d => (-d.x.toInt, -d.y.toInt)).Nodup := by
  -- The offsets of a drawable tell its tile.
  let tile : Int × Int → Tile := fun (x, y) =>
    ⟨(-x).toNat / Slot.tileWidth, (-y).toNat / Slot.tileHeight⟩
  have tiles : ((woven p o).drawables.map fun d => (-d.x.toInt, -d.y.toInt)).map tile =
      kept p o := by
    rw [List.map_map, ← map_ofDrawable_woven o h]
    refine List.map_congr_left fun d _ => ?_
    simp only [Function.comp_apply, tile, Int.neg_neg]
    rfl
  exact List.Nodup.of_map tile (tiles ▸ nodup_kept p o)

theorem place_inside (h : p.area ≤ pixelLimit) (ht : t ∈ kept p o) (hcell : cell ∈ t.cells p o) :
    0 ≤ (place (t.drawable p o, cell)).1 ∧ (place (t.drawable p o, cell)).1 < p.width.toNat ∧
      0 ≤ (place (t.drawable p o, cell)).2 ∧ (place (t.drawable p o, cell)).2 < p.height.toNat := by
  obtain ⟨c, pixel, -⟩ := Option.bind_eq_some_iff.mp (Tile.mem_cells.mp hcell)
  obtain ⟨across, upward⟩ := Picture.lt_of_fromBottom? pixel
  rw [place_drawable h (mem_all_of_mem_kept ht)]
  exact ⟨Int.natCast_nonneg _, Int.ofNat_lt.mpr across, Int.natCast_nonneg _,
    Int.ofNat_lt.mpr upward⟩

theorem blend_woven (c : Canvas) (h : p.area ≤ pixelLimit) {d : Drawable}
    (hd : d ∈ (woven p o).drawables) :
    c.blend d = "?blendmult=" ++ d.texture ++ ";" ++ (-d.x.toInt).repr ++ ";" ++
      (-d.y.toInt).repr ++ d.directives ++ if c.fade then fadeText else "" := by
  obtain ⟨right, above⟩ := position_nonneg_of_mem_woven h hd
  rw [← Word.neg?_eq_some_iff.mp (Word.neg?_of_nonneg right),
    ← Word.neg?_eq_some_iff.mp (Word.neg?_of_nonneg above)]
  rfl

theorem compose_holds_every_pixel (positive : 1 ≤ c.baseScale) (h : ofPicture p o = .ok m)
    (sized : 0 < p.width ∨ 0 < p.height) :
    ∃ scale blends text, c.compose m = .ok text ∧
      text = opening ++ scale.repr ++ "?crop=0;0;" ++ p.width.toNat.repr ++ ";" ++
        p.height.toNat.repr ++ String.join blends ++
        (if c.clearBackground then clearText else "") ∧
      (IsLeast {s | p.width.toNat ≤ s * c.baseScale.toNat ∧ p.height.toNat ≤ s * c.baseScale.toNat}
          scale ∧ 1 ≤ scale ∧
        ¬ (p.width.toNat ≤ (scale - 1) * c.baseScale.toNat ∧
          p.height.toNat ≤ (scale - 1) * c.baseScale.toNat)) ∧
      List.Forall₂ (fun d blend => blend = "?blendmult=" ++ d.texture ++ ";" ++
        (-d.x.toInt).repr ++ ";" ++ (-d.y.toInt).repr ++ d.directives ++
        if c.fade then fadeText else "") m.drawables blends ∧
      (m.drawables.map fun d => (-d.x.toInt, -d.y.toInt)).Nodup ∧
      ∃ chains,
        List.Forall₂ (fun d cells => Cell.ofChain d.directives = .ok cells) m.drawables chains ∧
        (∀ e ∈ entries m.drawables chains, 0 ≤ (place e).1 ∧ (place e).1 < p.width.toNat ∧
          0 ≤ (place e).2 ∧ (place e).2 < p.height.toNat) ∧
        ((entries m.drawables chains).map place).Nodup := by
  obtain ⟨small, rfl⟩ := ofPicture_eq_ok_iff.mp h
  have nonzero : c.baseScale ≠ 0 := by
    rintro zero
    exact absurd (zero ▸ positive) (by decide)
  obtain ⟨scale, isScale⟩ : ∃ scale, c.scale (woven p o) = .ok scale := ⟨_, if_neg nonzero⟩
  have least := isLeast_of_scale isScale
  refine ⟨scale, (woven p o).drawables.map c.blend, _,
    Attempt.map_eq_ok_iff.mpr ⟨scale, isScale, rfl⟩, rfl,
    ⟨least, pos_of_fits sized least.1, not_fits_pred sized least⟩, ?_, nodup_offsets small o,
    (kept p o).map fun t => t.cells p o, decoded_woven p o, ?_, ?_⟩
  · rw [List.forall₂_map_right_iff, List.forall₂_same]
    exact fun d => blend_woven c small
  · intro e he
    rw [entries_woven] at he
    obtain ⟨t, ht, he⟩ := List.mem_flatMap.mp he
    obtain ⟨cell, hcell, rfl⟩ := List.mem_map.mp he
    exact place_inside small ht hcell
  · rw [entries_woven]
    exact nodup_places small

theorem compose_holds_every_pixel_white :
    let p := Picture.filled 33 9 Color.white
    let c : Canvas := ⟨32, false, true⟩
    1 ≤ c.baseScale ∧ (0 < p.width ∨ 0 < p.height) ∧
      ∃ m blends text, ofPicture p Options.default = .ok m ∧ c.compose m = .ok text ∧
        text = opening ++ Nat.repr 2 ++ "?crop=0;0;" ++ Nat.repr 33 ++ ";" ++ Nat.repr 9 ++
          String.join blends ++ clearText ∧
        blends.length = m.drawables.length := by
  intro p c
  have hm : ofPicture p Options.default = .ok (woven p Options.default) :=
    ofPicture_of_le (by decide)
  obtain ⟨scale, blends, text, composed, written, ⟨least, -⟩, each, -⟩ :=
    compose_holds_every_pixel (c := c) (by decide) hm (.inl (by decide))
  have two : IsLeast {s | 33 ≤ s * 32 ∧ 9 ≤ s * 32} 2 :=
    ⟨⟨by decide, by decide⟩, fun s fits => by have := fits.1; omega⟩
  obtain rfl : scale = 2 := least.unique two
  exact ⟨by decide, .inl (by decide), _, blends, text, hm, composed, written,
    each.length_eq.symm⟩

end Canvas

end Recolor
