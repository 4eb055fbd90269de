import Recolor.Canvas
import Recolor.Item.Icon
import Recolor.Proofs.Mosaic.Words

namespace Recolor

open Mosaic

namespace Canvas

variable {c : Canvas} {d : Drawable} {m : Mosaic}

def scale? (c : Canvas) (m : Mosaic) : Option (Except CanvasError UInt32) :=
  if c.baseScale = 0 then some (.error .baseScale)
  else (Words.covering? c.baseScale (max m.width m.height)).map .ok

def blendAt (c : Canvas) (d : Drawable) (x y : Int32) : String :=
  "?blendmult=" ++ d.texture ++ ";" ++ x.toInt.repr ++ ";" ++ y.toInt.repr ++ d.directives ++
    if c.fade then fadeText else ""

def blend? (c : Canvas) (d : Drawable) : Option String := do
  let x ← Word.neg? d.x
  let y ← Word.neg? d.y
  return c.blendAt d x y

def compose? (c : Canvas) (m : Mosaic) : Option (Except CanvasError String) := do
  match ← c.scale? m with
  | .error e => return .error e
  | .ok scale =>
    let blends ← m.drawables.mapM c.blend?
    return .ok (header m scale.toNat ++ String.join blends ++
      if c.clearBackground then clearText else "")

theorem blend?_eq (right : 0 ≤ d.x.toInt) (above : 0 ≤ d.y.toInt) :
    c.blend? d = some (c.blend d) := by
  simp only [blend?, Option.bind_eq_bind, Option.bind_eq_some_iff]
  exact ⟨_, Word.neg?_of_nonneg right, _, Word.neg?_of_nonneg above, rfl⟩

theorem compose?_eq (right : ∀ d ∈ m.drawables, 0 ≤ d.x.toInt ∧ 0 ≤ d.y.toInt) :
    c.compose? m = some (c.compose m) := by
  have blends := Words.mapM_eq_some fun d hd => blend?_eq (c := c) (right d hd).1 (right d hd).2
  simp only [compose?, Option.bind_eq_bind, Option.bind_eq_some_iff]
  by_cases zero : c.baseScale = 0
  · refine ⟨.error .baseScale, if_pos zero, ?_⟩
    rw [compose, scale, if_pos zero]
    rfl
  · obtain ⟨scale, isScale, hscale⟩ :=
      Words.exists_covering? (Word.pos_of_ne_zero zero) (max m.width m.height)
    refine ⟨.ok scale, ?_, ?_⟩
    · rw [scale?, if_neg zero, isScale]
      rfl
    · simp only [Option.bind_eq_some_iff]
      refine ⟨_, blends, ?_⟩
      rw [compose, Canvas.scale, if_neg zero, hscale, Word.toNat_max]
      rfl

end Canvas

namespace IconEntry

variable {size length : UInt32}

structure Edge where
  last : UInt32
  rest : UInt32

def edge? (size length : UInt32) : Option Edge := do
  let count ← Words.covering? size length
  let last ← Word.pred? count
  return ⟨last, length % size⟩

def remainderAt? (size : UInt32) (edge : Edge) (position : Int32) : Option (Option Nat) := do
  let place ← Word.ofInt? (max position.toInt 0)
  return if place / size = edge.last ∧ edge.rest ≠ 0 then some edge.rest.toNat else none

def cropText : Option Nat → Option Nat → String
  | none, none => ""
  | width, height => crop (width.getD Slot.tileWidth) (height.getD Slot.tileHeight)

def ofDrawable? (columns rows : Edge) (d : Drawable) : Option IconEntry := do
  let width ← remainderAt? 32 columns d.x
  let height ← remainderAt? 8 rows d.y
  return ⟨d.image ++ cropText width height, d.x, d.y⟩

theorem exists_edge? (positive : 0 < size.toNat) (length : UInt32) :
    ∃ edge, edge? size length = some edge ∧
      edge.last.toNat = covering size.toNat length.toNat - 1 ∧
      edge.rest.toNat = length.toNat % size.toNat := by
  obtain ⟨count, isCount, hcount⟩ := Words.exists_covering? positive length
  obtain ⟨last, isLast, hlast⟩ := Word.exists_pred? count
  simp only [edge?, Option.bind_eq_bind, Option.bind_eq_some_iff]
  refine ⟨⟨last, length % size⟩, ⟨count, isCount, last, isLast, rfl⟩, ?_, UInt32.toNat_mod ..⟩
  rw [hlast, hcount]

theorem remainderAt?_eq {edge : Edge}
    (hlast : edge.last.toNat = covering size.toNat length.toNat - 1)
    (hrest : edge.rest.toNat = length.toNat % size.toNat) (position : Int32) :
    remainderAt? size edge position =
      some (remainder? size.toNat length.toNat (position.toInt.toNat / size.toNat)) := by
  have most := position.toInt_lt
  obtain ⟨place, isPlace, hplace⟩ :=
    Word.exists_ofInt? (n := max position.toInt 0) (by omega) (by omega)
  have same : place.toNat = position.toInt.toNat := by omega
  have last : place / size = edge.last ↔
      position.toInt.toNat / size.toNat = covering size.toNat length.toNat - 1 := by
    rw [← UInt32.toNat_inj, UInt32.toNat_div, same, hlast]
  have rest : edge.rest ≠ 0 ↔ length.toNat % size.toNat ≠ 0 := by
    rw [ne_eq, ← UInt32.toNat_inj, hrest]
    rfl
  simp only [remainderAt?, Option.bind_eq_bind, Option.bind_eq_some_iff]
  refine ⟨place, isPlace, ?_⟩
  simp only [remainder?, last, rest, hrest]
  rfl

end IconEntry

namespace Mosaic

def icon? (m : Mosaic) : Option (List IconEntry) := do
  let columns ← IconEntry.edge? 32 m.width
  let rows ← IconEntry.edge? 8 m.height
  m.drawables.mapM (IconEntry.ofDrawable? columns rows)

theorem icon?_eq (m : Mosaic) : m.icon? = some m.icon := by
  obtain ⟨columns, isColumns, lastColumn, restAcross⟩ :=
    IconEntry.exists_edge? (show 0 < (32 : UInt32).toNat by decide) m.width
  obtain ⟨rows, isRows, lastRow, restUpward⟩ :=
    IconEntry.exists_edge? (show 0 < (8 : UInt32).toNat by decide) m.height
  simp only [icon?, Option.bind_eq_bind, Option.bind_eq_some_iff]
  refine ⟨columns, isColumns, rows, isRows, ?_⟩
  refine Words.mapM_eq_some fun d _ => ?_
  simp only [IconEntry.ofDrawable?, Option.bind_eq_bind, Option.bind_eq_some_iff]
  exact ⟨_, IconEntry.remainderAt?_eq lastColumn restAcross d.x, _,
    IconEntry.remainderAt?_eq lastRow restUpward d.y, rfl⟩

variable {p : Picture} {o : Options}

theorem position_nonneg_of_mem_woven (h : p.area ≤ pixelLimit) {d : Drawable}
    (hd : d ∈ (woven p o).drawables) : 0 ≤ d.x.toInt ∧ 0 ≤ d.y.toInt := by
  obtain ⟨column, row, -, -⟩ := position_of_mem_woven h hd
  omega

theorem tiles_pos_of_mem_woven {d : Drawable} (hd : d ∈ (woven p o).drawables) :
    1 ≤ (woven p o).tileColumns ∧ 1 ≤ (woven p o).tileRows := by
  obtain ⟨t, ht, -⟩ := List.mem_map.mp hd
  have inside : t.left < p.width.toNat ∧ t.bottom < p.height.toNat :=
    Tile.mem_all.mp (mem_all_of_mem_kept ht)
  change 1 ≤ covering 32 p.width.toNat ∧ 1 ≤ covering 8 p.height.toNat
  unfold covering
  omega

theorem checkSize_iff (width height : UInt32) :
    (checkSize width height = .ok () ↔ width.toNat * height.toNat ≤ 32768) ∧
      (checkSize width height = .error (.tooLarge width height) ↔
        32768 < width.toNat * height.toNat) := by
  rcases Nat.lt_or_ge 32768 (width.toNat * height.toNat) with large | small
  · simp [checkSize_of_lt large, large]
  · simp [checkSize_of_le small, small]

theorem ofPicture_in_words (p : Picture) (o : Options) :
    Words.weave? p o = some (ofPicture p o) ∧
    (p.width.toNat * p.height.toNat ≤ 32768 →
      ∃ m, ofPicture p o = .ok m ∧
        (∀ c : Canvas, c.compose? m = some (c.compose m)) ∧
        m.icon? = some m.icon ∧
        ∀ d ∈ m.drawables, 1 ≤ m.tileColumns ∧ 1 ≤ m.tileRows) ∧
    ∀ width height : UInt32,
      (width.toUInt64 * height.toUInt64).toNat = width.toNat * height.toNat ∧
      (checkSize width height = .ok () ↔ width.toNat * height.toNat ≤ 32768) ∧
      (checkSize width height = .error (.tooLarge width height) ↔
        32768 < width.toNat * height.toNat) := by
  refine ⟨Words.weave?_eq p o, fun small => ?_, fun width height =>
    ⟨Words.toNat_area width height, checkSize_iff width height⟩⟩
  replace small : p.area ≤ pixelLimit := small
  exact ⟨woven p o, ofPicture_of_le small,
    fun c => Canvas.compose?_eq fun d => position_nonneg_of_mem_woven small, icon?_eq _,
    fun d => tiles_pos_of_mem_woven⟩

theorem ofPicture_in_words_white :
    let p := Picture.filled 33 9 Color.white
    (33 : UInt32).toNat * (9 : UInt32).toNat ≤ 32768 ∧
      ∃ m, Words.weave? p Options.default = some (.ok m) ∧ m.icon? = some m.icon ∧
        Canvas.default.compose? m = some (Canvas.default.compose m) ∧
        ∃ d ∈ m.drawables, d.x = 32 ∧ d.y = 8 := by
  intro p
  have small : (33 : UInt32).toNat * (9 : UInt32).toNat ≤ 32768 := by decide
  obtain ⟨woven_eq, rendered, -⟩ := ofPicture_in_words p Options.default
  obtain ⟨m, hm, composed, icon, -⟩ := rendered small
  have corner : p.fromBottom? 32 8 = some Color.white := by
    rw [Picture.fromBottom?_filled]
    rfl
  have shown : (⟨1, 1⟩ : Tile) ∈ kept p Options.default :=
    mem_kept.mpr ⟨32, 8, _, corner, rfl, by decide, nofun⟩
  obtain ⟨-, rfl⟩ := ofPicture_eq_ok_iff.mp hm
  exact ⟨small, _, woven_eq.trans (congrArg some hm), icon, composed _, _,
    List.mem_map_of_mem shown, rfl, rfl⟩

end Mosaic

end Recolor
