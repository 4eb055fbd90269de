import Recolor.Proofs.Chain.Cells
import Recolor.Proofs.Mosaic.Tiling

namespace Recolor.Mosaic

variable {p : Picture} {o : Options}

theorem mem_cells_iff {t : Tile} {s : Slot} {c : Color} :
    ⟨s, c⟩ ∈ t.cells p o ↔
      ∃ source, t.pixel? p s = some source ∧ o.ignored ≠ some source ∧
        (1 ≤ source.alpha ∨ o.replaceBlank = true) ∧ c = o.written source := by
  rw [Tile.mem_cells, Option.bind_eq_some_iff]
  simp only [Options.encode?_eq_some_iff, Options.not_omits_iff, and_assoc]

theorem ofChain_directives {m : Mosaic} (h : ofPicture p o = .ok m) {d : Drawable}
    (hd : d ∈ m.drawables) :
    ∃ cells, Cell.ofChain d.directives = .ok cells ∧
      cells.Pairwise (fun a b => a.slot.column < b.slot.column ∨
        a.slot.column = b.slot.column ∧ a.slot.row < b.slot.row) ∧
      (cells.map Cell.slot).Nodup ∧ cells.length ≤ 256 ∧
      (∀ s c, ⟨s, c⟩ ∈ cells ↔
        ∃ (x y : Nat) (source : Color), x = d.x.toInt + s.column.val ∧
          y = d.y.toInt + s.row.val ∧ p.fromBottom? x y = some source ∧
          o.ignored ≠ some source ∧ (1 ≤ source.alpha ∨ o.replaceBlank = true) ∧ c = o.written source) ∧
      Cell.chain cells = d.directives := by
  obtain ⟨small, rfl⟩ := ofPicture_eq_ok_iff.mp h
  obtain ⟨t, ht, rfl⟩ := List.mem_map.mp hd
  have hall := mem_all_of_mem_kept ht
  have ordered := t.cells_pairwise p o
  refine ⟨t.cells p o, Cell.ofChain_chain _, ordered, ?_, t.length_cells_le p o, ?_, rfl⟩
  · exact List.pairwise_map.mpr (ordered.imp Slot.ne_of_before)
  · intro s c
    rw [mem_cells_iff, Tile.x_drawable small hall, Tile.y_drawable small hall]
    constructor
    · rintro ⟨source, pixel, rest⟩
      exact ⟨_, _, source, Int.natCast_add .., Int.natCast_add .., pixel, rest⟩
    · rintro ⟨x, y, source, hx, hy, pixel, rest⟩
      obtain rfl : x = t.left + s.column.val := by omega
      obtain rfl : y = t.bottom + s.row.val := by omega
      exact ⟨source, pixel, rest⟩

theorem ofChain_directives_white :
    ∃ m, ∃ d ∈ m.drawables,
      ofPicture (Picture.filled 33 9 Color.white) { Options.default with replaceWhite := true } =
          .ok m ∧
        ∃ cells, Cell.ofChain d.directives = .ok cells ∧ ⟨⟨0, 0⟩, Color.nearWhite⟩ ∈ cells := by
  let p := Picture.filled 33 9 Color.white
  let o := { Options.default with replaceWhite := true }
  have small : p.area ≤ pixelLimit := by decide
  have corner : p.fromBottom? 32 8 = some Color.white := by
    rw [Picture.fromBottom?_filled]
    rfl
  have shown : (⟨1, 1⟩ : Tile) ∈ kept p o :=
    mem_kept.mpr ⟨32, 8, _, corner, rfl, by decide, nofun⟩
  have hm : ofPicture p o = .ok (woven p o) := ofPicture_of_le small
  have hd : Tile.drawable ⟨1, 1⟩ p o ∈ (woven p o).drawables := List.mem_map_of_mem shown
  obtain ⟨cells, decoded, -, -, -, written, -⟩ := ofChain_directives hm hd
  refine ⟨_, _, hd, hm, cells, decoded, (written _ _).mpr ?_⟩
  exact ⟨32, 8, _, by decide, by decide, corner, nofun, .inl (by decide), rfl⟩

end Recolor.Mosaic
