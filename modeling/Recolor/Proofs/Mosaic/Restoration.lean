import Recolor.Proofs.Chain.Cells
import Recolor.Proofs.Mosaic.Painting
import Recolor.Proofs.Mosaic.Tiling

namespace Recolor.Mosaic

variable {p : Picture} {o : Options} {t : Tile}

namespace Tile

def strokes (t : Tile) (p : Picture) (o : Options) : List Stroke :=
  (t.cells p o).map fun cell =>
    ⟨t.left + cell.slot.column.val, t.bottom + cell.slot.row.val, cell.color⟩

theorem mem_strokes {x y : Nat} {c : Color} :
    ⟨x, y, c⟩ ∈ t.strokes p o ↔
      holding x y = t ∧ (p.fromBottom? x y).bind o.encode? = some c := by
  simp only [strokes, List.mem_map, Stroke.mk.injEq]
  constructor
  · rintro ⟨⟨s, d⟩, hd, hx, hy, rfl⟩
    obtain ⟨rfl, rfl⟩ := place_iff.mp ⟨hx, hy⟩
    exact ⟨rfl, pixel?_holding p x y ▸ mem_cells.mp hd⟩
  · rintro ⟨rfl, hc⟩
    have place := place_holding x y
    exact ⟨⟨Slot.holding x y, c⟩, mem_cells.mpr (pixel?_holding p x y ▸ hc), place.1, place.2, rfl⟩

theorem strokesOf_drawable (h : p.area ≤ pixelLimit) (ht : t ∈ all p) :
    strokesOf (t.drawable p o) = .ok (t.strokes p o) := by
  rw [strokesOf, x_drawable h ht, y_drawable h ht, drawable, Cell.ofChain_chain]
  rfl

theorem shows_of_pixel? {x y : Nat} {c : Color} (hc : p.pixel? x y = some c)
    (shows : o.Shows c) : (holding x (p.rows - 1 - y)).Shows p o := by
  have hy : y < p.rows := ((Picture.pixel?_isSome p x y).mp (hc ▸ rfl)).2
  exact ⟨x, _, c, Picture.pixel?_eq_fromBottom? x hy ▸ hc, rfl, shows⟩

end Tile

def layers (p : Picture) (o : Options) : List Stroke :=
  (kept p o).flatMap fun t => t.strokes p o

def repainted (p : Picture) (o : Options) : Picture :=
  (layers p o).foldl Stroke.paint (Picture.filled p.width p.height Color.clear)

theorem mem_layers {x y : Nat} {c : Color} :
    ⟨x, y, c⟩ ∈ layers p o ↔
      (Tile.holding x y).Shows p o ∧ (p.fromBottom? x y).bind o.encode? = some c := by
  simp only [layers, List.mem_flatMap, mem_kept, Tile.mem_strokes]
  constructor
  · rintro ⟨_, shows, rfl, hc⟩
    exact ⟨shows, hc⟩
  · rintro ⟨shows, hc⟩
    exact ⟨_, shows, rfl, hc⟩

theorem toPicture_woven (h : p.area ≤ pixelLimit) :
    (woven p o).toPicture = .ok (repainted p o) := by
  have strokes : strokesOfAll (woven p o).drawables = .ok (layers p o) :=
    strokesOfAll_map fun t ht => Tile.strokesOf_drawable h (mem_all_of_mem_kept ht)
  have room : 4 * p.width.toNat * p.height.toNat ≤ Picture.byteLimit := by
    rw [Nat.mul_assoc]
    exact Nat.le_trans (Nat.mul_le_mul_left 4 h) (by decide)
  rw [toPicture_of_room room, Mosaic.strokes, strokes]
  rfl

theorem width_repainted : (repainted p o).width = p.width := (size_foldl_paint _ _).1

theorem height_repainted : (repainted p o).height = p.height := (size_foldl_paint _ _).2

theorem topmost?_layers (p : Picture) (o : Options) (x y : Nat) :
    topmost? (layers p o) x y =
      if (Tile.holding x y).Shows p o then (p.fromBottom? x y).bind o.encode? else none := by
  refine topmost?_eq fun c => ?_
  rw [mem_layers]
  split
  · next shows => simp [shows]
  · next hidden => simp [hidden]

theorem fromBottom?_repainted (p : Picture) (o : Options) (x y : Nat) :
    (repainted p o).fromBottom? x y = (p.fromBottom? x y).map fun c =>
      if (Tile.holding x y).Shows p o then o.restored c else Color.clear := by
  rw [repainted, fromBottom?_foldl_paint, topmost?_layers, Picture.fromBottom?_filled]
  cases hc : p.fromBottom? x y with
  | none =>
    have outside : ¬ (x < p.width.toNat ∧ y < p.height.toNat) := by
      have none := Picture.fromBottom?_isSome p x y
      rw [hc] at none
      exact fun inside => nomatch none.mpr inside
    rw [if_neg outside]
    rfl
  | some c =>
    have inside : x < p.width.toNat ∧ y < p.height.toNat := Picture.lt_of_fromBottom? hc
    rw [if_pos inside, Option.map_some, Option.map_some, Option.bind_some]
    split
    · rw [Options.encode?_getD_clear]
    · rw [Option.getD_none]

theorem pixel?_repainted (p : Picture) (o : Options) (x y : Nat) :
    (repainted p o).pixel? x y = (p.pixel? x y).map fun c =>
      if (Tile.holding x (p.rows - 1 - y)).Shows p o then o.restored c else Color.clear := by
  have rows : (repainted p o).rows = p.rows := congrArg UInt32.toNat height_repainted
  by_cases hy : y < p.rows
  · rw [Picture.pixel?_eq_fromBottom? x (rows ▸ hy), rows, fromBottom?_repainted,
      Picture.pixel?_eq_fromBottom? x hy]
  · rw [Picture.pixel?, rows, if_neg fun inside => hy inside.2, Picture.pixel?,
      if_neg fun inside => hy inside.2, Option.map_none]

theorem shows_repainted (p : Picture) (o : Options)
    (same : ∀ c, o.encode? (o.restored c) = o.encode? c) (t : Tile) :
    t.Shows (repainted p o) o ↔ t.Shows p o := by
  have restored (c : Color) : o.Shows (o.restored c) ↔ o.Shows c := by
    rw [← Options.exists_visible_iff, same, Options.exists_visible_iff]
  constructor
  · rintro ⟨x, y, d, hd, rfl, shows⟩
    rw [fromBottom?_repainted] at hd
    obtain ⟨c, -, rfl⟩ := Option.map_eq_some_iff.mp hd
    by_contra hidden
    rw [if_neg hidden] at shows
    exact Options.not_shows_clear shows
  · intro shown
    obtain ⟨x, y, c, hc, rfl, shows⟩ := shown
    refine ⟨x, y, o.restored c, ?_, rfl, (restored c).mpr shows⟩
    rw [fromBottom?_repainted, hc, Option.map_some, if_pos ⟨x, y, c, hc, rfl, shows⟩]

theorem cells_repainted (same : ∀ c, o.encode? (o.restored c) = o.encode? c)
    (ht : t.Shows p o) : t.cells (repainted p o) o = t.cells p o := by
  have pixel (s : Slot) : t.pixel? (repainted p o) s = (t.pixel? p s).map o.restored := by
    have place := (Tile.place_iff (t := t) (s := s)).mp ⟨rfl, rfl⟩
    rw [Tile.pixel?, fromBottom?_repainted, place.1, Tile.pixel?]
    simp only [ht, if_true]
  unfold Tile.cells
  congr 1
  funext s
  rw [pixel, Option.bind_map]
  congr 2
  funext c
  exact same c

theorem woven_repainted (same : ∀ c, o.encode? (o.restored c) = o.encode? c) :
    woven (repainted p o) o = woven p o := by
  have all : Tile.all (repainted p o) = Tile.all p := by
    unfold Tile.all Picture.area Picture.columns Picture.rows
    rw [width_repainted, height_repainted]
  have kept : kept (repainted p o) o = kept p o := kept_congr all (shows_repainted p o same)
  have drawables : ∀ t ∈ Mosaic.kept p o, t.drawable (repainted p o) o = t.drawable p o := by
    intro t ht
    rw [Tile.drawable, cells_repainted same (mem_kept.mp ht), Tile.drawable]
  rw [woven, kept, List.map_congr_left drawables, width_repainted, height_repainted, woven]

theorem toPicture_ofPicture (p : Picture) (o : Options)
    (h : p.width.toNat * p.height.toNat ≤ 32768) :
    ∃ m q, ofPicture p o = .ok m ∧ m.toPicture = .ok q ∧
      q.width = p.width ∧ q.height = p.height ∧
      (∀ x y c, p.pixel? x y = some c → q.pixel? x y =
        some (if (Tile.holding x (p.rows - 1 - y)).Shows p o then o.restored c
          else Color.clear)) ∧
      (∀ x y c, p.pixel? x y = some c → o.Shows c → q.pixel? x y = some (o.written c)) ∧
      ∀ x y d, q.pixel? x y = some d → d ≠ Color.clear →
        ∃ c, p.pixel? x y = some c ∧ d = o.written c := by
  replace h : p.area ≤ pixelLimit := h
  refine ⟨woven p o, repainted p o, ofPicture_of_le h, toPicture_woven h, width_repainted,
    height_repainted, ?_, ?_, ?_⟩
  · intro x y c hc
    rw [pixel?_repainted, hc, Option.map_some]
  · intro x y c hc shows
    have shown := Tile.shows_of_pixel? hc shows
    rw [pixel?_repainted, hc, Option.map_some, if_pos shown, Options.restored_of_shows shows]
  · intro x y d hd painted
    rw [pixel?_repainted] at hd
    obtain ⟨c, hc, rfl⟩ := Option.map_eq_some_iff.mp hd
    refine ⟨c, hc, ?_⟩
    split at painted
    · next shown => rw [if_pos shown, Options.restored_of_ne_clear painted]
    · exact absurd rfl painted

theorem toPicture_ofPicture_white :
    (33 : UInt32).toNat * (9 : UInt32).toNat ≤ 32768 ∧
      ∃ m q, ofPicture (Picture.filled 33 9 Color.white)
          { Options.default with replaceWhite := true } = .ok m ∧
        m.toPicture = .ok q ∧ q.pixel? 32 0 = some Color.nearWhite := by
  have small : (33 : UInt32).toNat * (9 : UInt32).toNat ≤ 32768 := by decide
  obtain ⟨m, q, hm, hq, -, -, -, seen, -⟩ := toPicture_ofPicture
    (Picture.filled 33 9 Color.white) { Options.default with replaceWhite := true } small
  have corner : (Picture.filled 33 9 Color.white).pixel? 32 0 = some Color.white := by
    rw [Picture.pixel?_filled]
    rfl
  exact ⟨small, m, q, hm, hq, seen 32 0 _ corner ⟨by decide, nofun⟩⟩

theorem ofPicture_toPicture (p : Picture) (o : Options)
    (h : p.width.toNat * p.height.toNat ≤ 32768)
    (blank : o.replaceBlank = false ∨ o.ignored = none ∨ o.ignored = some Color.clear)
    (near : ¬ (o.ignored = some Color.nearWhite ∧
      (o.replaceBlank = true ∨ o.replaceWhite = true))) :
    ∃ m q, ofPicture p o = .ok m ∧ m.toPicture = .ok q ∧ ofPicture q o = .ok m := by
  replace h : p.area ≤ pixelLimit := h
  have same (c : Color) : o.encode? (o.restored c) = o.encode? c :=
    Options.encode?_restored blank near
  refine ⟨woven p o, repainted p o, ofPicture_of_le h, toPicture_woven h, ?_⟩
  rw [ofPicture_eq_ok_iff, woven_repainted same, Picture.area, Picture.columns, Picture.rows,
    width_repainted, height_repainted]
  exact ⟨h, rfl⟩

theorem ofPicture_toPicture_white :
    let p := Picture.filled 33 9 Color.white
    let o := { Options.default with ignored := some Color.clear, replaceBlank := true }
    p.width.toNat * p.height.toNat ≤ 32768 ∧
      (o.replaceBlank = false ∨ o.ignored = none ∨ o.ignored = some Color.clear) ∧
      ¬ (o.ignored = some Color.nearWhite ∧ (o.replaceBlank = true ∨ o.replaceWhite = true)) ∧
      ∃ m q, ofPicture p o = .ok m ∧ m.toPicture = .ok q ∧ ofPicture q o = .ok m := by
  intro p o
  have small : p.width.toNat * p.height.toNat ≤ 32768 := by decide
  have blank : o.replaceBlank = false ∨ o.ignored = none ∨ o.ignored = some Color.clear :=
    .inr (.inr rfl)
  have near : ¬ (o.ignored = some Color.nearWhite ∧
      (o.replaceBlank = true ∨ o.replaceWhite = true)) := by decide
  exact ⟨small, blank, near, ofPicture_toPicture p o small blank near⟩

end Recolor.Mosaic
