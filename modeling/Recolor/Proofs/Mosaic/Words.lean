import Mathlib.Data.List.ReduceOption
import Recolor.Proofs.Mosaic.Tiling
import Recolor.Proofs.Number.Word

namespace Recolor.Mosaic

theorem covering_eq {size : Nat} (positive : 0 < size) (n : Nat) :
    covering size n = if n % size = 0 then n / size else n / size + 1 := by
  cases n with
  | zero =>
    have less : size - 1 < size := by omega
    simp [covering, Nat.div_eq_of_lt less]
  | succ n =>
    rw [covering_succ positive, Nat.succ_div]
    simp only [Nat.dvd_iff_mod_eq_zero]
    split <;> simp

theorem covering_le {size : Nat} (positive : 0 < size) (n : Nat) : covering size n ≤ n := by
  cases n with
  | zero => simp [covering_eq positive]
  | succ n =>
    rw [covering_succ positive]
    exact Nat.succ_le_succ (Nat.div_le_self n size)

namespace Words

variable {p : Picture} {o : Options} {column row columns rows size : UInt32}

def covering? (size length : UInt32) : Option UInt32 :=
  if length % size = 0 then some (length / size) else Word.add? (length / size) 1

def upTo (n : UInt32) : List UInt32 := (List.range n.toNat).map UInt32.ofNat

def tileAt (column row : UInt32) : Tile := ⟨column.toNat, row.toNat⟩

def grid (columns rows : UInt32) : List (UInt32 × UInt32) :=
  (upTo columns).flatMap fun column => (upTo rows).map fun row => (column, row)

def color? (p : Picture) (x y : UInt32) : Option (Option Color) :=
  if x < p.width ∧ y < p.height then do
    let last ← Word.sub? p.height 1
    let line ← Word.sub? last y
    let color ← p.pixel? x.toNat line.toNat
    return some color
  else some none

def cell? (p : Picture) (o : Options) (column row : UInt32) (s : Slot) : Option (Option Cell) := do
  let left ← Word.mul? column 32
  let x ← Word.add? left (UInt32.ofNat s.column.val)
  let bottom ← Word.mul? row 8
  let y ← Word.add? bottom (UInt32.ofNat s.row.val)
  let color ← color? p x y
  return (color.bind o.encode?).map fun color => ⟨s, color⟩

def drawable? (p : Picture) (o : Options) (column row : UInt32) : Option (Option Drawable) := do
  let cells ← Slot.all.mapM (cell? p o column row)
  let cells := cells.reduceOption
  if cells.any fun cell => cell.color.isVisible then
    let left ← Word.mul? column 32
    let x ← Word.signed? left.toNat
    let bottom ← Word.mul? row 8
    let y ← Word.signed? bottom.toNat
    return some ⟨o.texture, Cell.chain cells, x, y⟩
  else return none

def checkArea (width height : UInt32) : Except WeaveError Unit :=
  if 32768 < width.toUInt64 * height.toUInt64 then .error (.tooLarge width height) else .ok ()

def weave? (p : Picture) (o : Options) : Option (Except WeaveError Mosaic) :=
  match checkArea p.width p.height with
  | .error e => some (.error e)
  | .ok () => do
    let columns ← covering? 32 p.width
    let rows ← covering? 8 p.height
    let drawables ← (grid columns rows).mapM fun corner => drawable? p o corner.1 corner.2
    -- The count of the tiles is only reported.
    let _ ← Word.mul? columns rows
    return .ok {
      drawables := drawables.reduceOption
      width := p.width
      height := p.height
      offsetX := Binary64.ofInt o.handX.toInt
      offsetY := Binary64.ofInt o.handY.toInt }

theorem exists_covering? (positive : 0 < size.toNat) (length : UInt32) :
    ∃ count, covering? size length = some count ∧
      count.toNat = covering size.toNat length.toNat := by
  have rest : length % size = 0 ↔ length.toNat % size.toNat = 0 := by
    rw [← UInt32.toNat_inj, UInt32.toNat_mod, UInt32.toNat_zero]
  rw [covering?, covering_eq positive]
  simp only [rest]
  split
  · exact ⟨_, rfl, UInt32.toNat_div ..⟩
  · next partly =>
    -- Nothing is left over by a divisor of 1, so one more than the quotient still fits.
    have notOne : size.toNat ≠ 1 := fun one => partly (by rw [one, Nat.mod_one])
    have half : length.toNat / size.toNat ≤ length.toNat / 2 :=
      Nat.div_le_div_left (by omega) (by decide)
    have small := length.toNat_lt
    have one : (1 : UInt32).toNat = 1 := rfl
    rw [← UInt32.toNat_div] at half ⊢
    exact Word.exists_add? (by omega)

theorem map_toNat_upTo (n : UInt32) : (upTo n).map UInt32.toNat = List.range n.toNat := by
  rw [upTo, List.map_map]
  refine (List.map_congr_left fun k hk => ?_).trans (List.map_id _)
  have small := n.toNat_lt
  have less : k < n.toNat := List.mem_range.mp hk
  exact UInt32.toNat_ofNat_of_lt' (Nat.lt_trans less small)

theorem mapM_eq_some {α β : Type} {f : α → Option β} {g : α → β} {xs : List α}
    (each : ∀ x ∈ xs, f x = some (g x)) : xs.mapM f = some (xs.map g) := by
  induction xs with
  | nil => rfl
  | cons x xs ih =>
    obtain ⟨first, others⟩ := List.forall_mem_cons.mp each
    rw [List.mapM_cons, first, ih others]
    rfl

theorem toNat_area (width height : UInt32) :
    (width.toUInt64 * height.toUInt64).toNat = width.toNat * height.toNat := by
  have across := width.toNat_lt
  have upward := height.toNat_lt
  have fits : width.toNat * height.toNat < 18446744073709551616 := by
    calc width.toNat * height.toNat ≤ 4294967295 * 4294967295 :=
          Nat.mul_le_mul (by omega) (by omega)
      _ < 18446744073709551616 := by decide
  rw [UInt64.toNat_mul, UInt32.toNat_toUInt64, UInt32.toNat_toUInt64, Nat.mod_eq_of_lt fits]

theorem checkArea_eq (width height : UInt32) : checkArea width height = checkSize width height := by
  have limit : (32768 : UInt64).toNat = pixelLimit := rfl
  simp only [checkArea, checkSize, UInt64.lt_iff_toNat_lt, toNat_area, limit]

theorem color?_eq (p : Picture) (x y : UInt32) :
    color? p x y = some (p.fromBottom? x.toNat y.toNat) := by
  have inside : x < p.width ∧ y < p.height ↔ x.toNat < p.columns ∧ y.toNat < p.rows := by
    rw [UInt32.lt_iff_toNat_lt, UInt32.lt_iff_toNat_lt, Picture.columns, Picture.rows]
  unfold color?
  split
  · next h =>
    obtain ⟨across, upward⟩ := inside.mp h
    obtain ⟨color, hcolor⟩ := Option.isSome_iff_exists.mp
      ((p.fromBottom?_isSome x.toNat y.toNat).mpr ⟨across, upward⟩)
    obtain ⟨last, line, isLast, isLine, hline⟩ := Word.exists_sub?_sub? upward
    have read : p.pixel? x.toNat line.toNat = some color := by
      rw [← hcolor, Picture.fromBottom?, if_pos upward, hline, Picture.rows]
    rw [hcolor]
    simp only [Option.bind_eq_bind, Option.bind_eq_some_iff]
    exact ⟨last, isLast, line, isLine, color, read, rfl⟩
  · next h =>
    have outside := mt (p.fromBottom?_isSome x.toNat y.toNat).mp (mt inside.mpr h)
    rw [Option.not_isSome_iff_eq_none.mp outside]

theorem exists_position {count size : UInt32} {steps : Nat} (hsize : size.toNat = steps)
    (small : steps * count.toNat ≤ pixelLimit) :
    ∃ product, Word.mul? count size = some product ∧ product.toNat = steps * count.toNat := by
  subst hsize
  have limit : pixelLimit = 32768 := rfl
  rw [Nat.mul_comm] at small ⊢
  exact Word.exists_mul? (by omega)

theorem exists_corner (h : p.area ≤ pixelLimit) (ht : tileAt column row ∈ Tile.all p) :
    (∃ left, Word.mul? column 32 = some left ∧ left.toNat = (tileAt column row).left) ∧
      ∃ bottom, Word.mul? row 8 = some bottom ∧ bottom.toNat = (tileAt column row).bottom := by
  obtain ⟨near, low⟩ := Tile.position_le h ht
  exact ⟨exists_position rfl near, exists_position rfl low⟩

theorem cell?_eq (h : p.area ≤ pixelLimit) (ht : tileAt column row ∈ Tile.all p) (s : Slot) :
    cell? p o column row s =
      some ((((tileAt column row).pixel? p s).bind o.encode?).map fun color => ⟨s, color⟩) := by
  obtain ⟨near, low⟩ := Tile.position_le h ht
  obtain ⟨⟨left, isLeft, hleft⟩, bottom, isBottom, hbottom⟩ := exists_corner h ht
  have limit : pixelLimit = 32768 := rfl
  have hcolumn : (UInt32.ofNat s.column.val).toNat = s.column.val :=
    UInt32.toNat_ofNat_of_lt' (Nat.lt_trans s.column.isLt (by decide))
  have hrow : (UInt32.ofNat s.row.val).toNat = s.row.val :=
    UInt32.toNat_ofNat_of_lt' (Nat.lt_trans s.row.isLt (by decide))
  obtain ⟨x, across, hx⟩ :=
    Word.exists_add? (a := left) (b := UInt32.ofNat s.column.val) (by omega)
  obtain ⟨y, upward, hy⟩ :=
    Word.exists_add? (a := bottom) (b := UInt32.ofNat s.row.val) (by omega)
  simp only [cell?, Option.bind_eq_bind, Option.bind_eq_some_iff]
  refine ⟨left, isLeft, x, across, bottom, isBottom, y, upward, _, color?_eq p x y, ?_⟩
  rw [Tile.pixel?, ← hleft, ← hbottom, hx, hy, hcolumn, hrow]
  rfl

theorem drawable?_eq (h : p.area ≤ pixelLimit) (ht : tileAt column row ∈ Tile.all p) :
    drawable? p o column row = some ((tileAt column row).drawable? p o) := by
  obtain ⟨near, low⟩ := Tile.position_le h ht
  obtain ⟨⟨left, isLeft, hleft⟩, bottom, isBottom, hbottom⟩ := exists_corner h ht
  have x : Word.signed? left.toNat = some (Int32.ofNat (tileAt column row).left) := by
    rw [Word.signed?_eq_some_iff, hleft, Tile.toInt_ofNat_of_le near]
  have y : Word.signed? bottom.toNat = some (Int32.ofNat (tileAt column row).bottom) := by
    rw [Word.signed?_eq_some_iff, hbottom, Tile.toInt_ofNat_of_le low]
  have written := mapM_eq_some fun s (_ : s ∈ Slot.all) => cell?_eq (o := o) h ht s
  have cells : (Slot.all.map fun s => (((tileAt column row).pixel? p s).bind o.encode?).map
      fun color => (⟨s, color⟩ : Cell)).reduceOption = (tileAt column row).cells p o := by
    rw [List.reduceOption, List.filterMap_map]
    rfl
  simp only [drawable?, Option.bind_eq_bind, Option.bind_eq_some_iff]
  refine ⟨_, written, ?_⟩
  rw [cells, Tile.drawable?]
  split
  · simp only [Option.bind_eq_some_iff]
    exact ⟨left, isLeft, _, x, bottom, isBottom, _, y, rfl⟩
  · rfl

theorem all_eq_flatMap (p : Picture) : Tile.all p =
    (List.range (covering Slot.tileWidth p.columns)).flatMap fun column =>
      (List.range (covering Slot.tileHeight p.rows)).map fun row => ⟨column, row⟩ := by
  unfold Tile.all
  split
  · next empty =>
    rcases Nat.mul_eq_zero.mp empty with none | none
    · simp [none, covering, Slot.tileWidth]
    · simp [none, covering, Slot.tileHeight]
  · rfl

theorem map_tileAt_grid (hcolumns : columns.toNat = covering Slot.tileWidth p.columns)
    (hrows : rows.toNat = covering Slot.tileHeight p.rows) :
    (grid columns rows).map (fun corner => tileAt corner.1 corner.2) = Tile.all p := by
  rw [all_eq_flatMap, ← hcolumns, ← hrows, ← map_toNat_upTo, ← map_toNat_upTo, grid,
    List.map_flatMap, List.flatMap_map]
  simp only [List.map_map]
  rfl

theorem exists_drawables? (h : p.area ≤ pixelLimit)
    (tiles : (grid columns rows).map (fun corner => tileAt corner.1 corner.2) = Tile.all p) :
    ∃ drawables, (grid columns rows).mapM (fun corner => drawable? p o corner.1 corner.2) =
        some drawables ∧
      drawables.reduceOption = (Tile.all p).filterMap fun t => t.drawable? p o := by
  refine ⟨_, mapM_eq_some fun corner hcorner =>
    drawable?_eq (o := o) h (tiles ▸ List.mem_map_of_mem hcorner), ?_⟩
  rw [← tiles, List.reduceOption, List.filterMap_map, List.filterMap_map]
  rfl

theorem exists_tileCount (h : p.area ≤ pixelLimit)
    (hcolumns : columns.toNat = covering Slot.tileWidth p.columns)
    (hrows : rows.toNat = covering Slot.tileHeight p.rows) :
    ∃ tiles, Word.mul? columns rows = some tiles := by
  have across : columns.toNat ≤ p.columns := hcolumns ▸ covering_le (by decide) _
  have upward : rows.toNat ≤ p.rows := hrows ▸ covering_le (by decide) _
  have few : columns.toNat * rows.toNat ≤ 32768 := Nat.le_trans (Nat.mul_le_mul across upward) h
  obtain ⟨tiles, product, -⟩ := Word.exists_mul? (a := columns) (b := rows) (by omega)
  exact ⟨tiles, product⟩

theorem weave?_eq (p : Picture) (o : Options) : weave? p o = some (ofPicture p o) := by
  rw [weave?, checkArea_eq]
  rcases Nat.lt_or_ge pixelLimit p.area with large | h
  · rw [checkSize_of_lt large, ofPicture_of_lt large]
  · have fine : checkSize p.width p.height = .ok () := checkSize_of_le h
    obtain ⟨columns, isColumns, hcolumns⟩ :=
      exists_covering? (show 0 < (32 : UInt32).toNat by decide) p.width
    obtain ⟨rows, isRows, hrows⟩ :=
      exists_covering? (show 0 < (8 : UInt32).toNat by decide) p.height
    obtain ⟨drawables, drawn, kept⟩ :=
      exists_drawables? (o := o) h (map_tileAt_grid hcolumns hrows)
    obtain ⟨tiles, isCount⟩ := exists_tileCount h hcolumns hrows
    rw [fine, ofPicture, fine]
    simp only [Option.bind_eq_bind, Option.bind_eq_some_iff]
    refine ⟨columns, isColumns, rows, isRows, drawables, drawn, tiles, isCount, ?_⟩
    rw [kept]
    rfl

end Words

end Recolor.Mosaic
