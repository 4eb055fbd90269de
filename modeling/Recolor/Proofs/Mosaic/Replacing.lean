import Recolor.Proofs.Mosaic.TileChain

namespace Recolor.Mosaic

variable {p : Picture} {o o' : Options} {t : Tile}

namespace Options

def replacing (o : Options) (blank white : Bool) : Options :=
  { o with replaceBlank := blank, replaceWhite := white }

theorem written_replacing {blank white : Bool} (h : blank = true ∨ white = true) (c : Color) :
    (o.replacing blank white).written c = if c = Color.white then Color.nearWhite else c := by
  simp only [written, replacing, h, and_true]

theorem written_replacing_none (c : Color) : (o.replacing false false).written c = c :=
  if_neg fun replaces => by simp [replacing] at replaces

theorem not_omits_replacing_iff {white white' : Bool} {c : Color} :
    ¬ (o.replacing false white).Omits c ↔ ¬ (o.replacing true white').Omits c ∧ 1 ≤ c.alpha := by
  simp [not_omits_iff, replacing]

theorem encode?_replacing_filter (o : Options) (white : Bool) (c : Color) :
    (o.replacing false true).encode? c =
      ((o.replacing true white).encode? c).filter fun d => decide (1 ≤ d.alpha) := by
  have same : (o.replacing false true).written c = (o.replacing true white).written c := by
    rw [written_replacing (.inr rfl), written_replacing (.inl rfl)]
  refine Option.ext fun d => ?_
  rw [Option.filter_eq_some_iff, encode?_eq_some_iff, encode?_eq_some_iff,
    not_omits_replacing_iff, same, decide_eq_true_eq]
  constructor
  · rintro ⟨⟨kept, seen⟩, rfl⟩
    exact ⟨⟨kept, rfl⟩, alpha_written.symm ▸ seen⟩
  · rintro ⟨⟨kept, rfl⟩, seen⟩
    exact ⟨⟨kept, alpha_written ▸ seen⟩, rfl⟩

theorem encode?_replacing_map (o : Options) (c : Color) :
    (o.replacing false true).encode? c = ((o.replacing false false).encode? c).map fun d =>
      if d = Color.white then Color.nearWhite else d := by
  by_cases h : (o.replacing false false).Omits c
  · rw [encode?_of_omits h, encode?_of_omits (o := o.replacing false true) h, Option.map_none]
  · rw [encode?_of_not_omits h, encode?_of_not_omits (o := o.replacing false true) h,
      Option.map_some, written_replacing_none, written_replacing (.inr rfl)]

end Options

namespace Tile

theorem cells_filter {keep : Color → Bool}
    (h : ∀ c, o'.encode? c = (o.encode? c).filter keep) (t : Tile) (p : Picture) :
    t.cells p o' = (t.cells p o).filter fun cell => keep cell.color := by
  rw [cells, cells, List.filter_filterMap]
  congr 1
  funext slot
  cases t.pixel? p slot with
  | none => rfl
  | some c =>
    rw [Option.bind_some, Option.bind_some, h]
    cases o.encode? c with
    | none => rfl
    | some d => cases hd : keep d <;> simp [Option.filter, hd]

theorem cells_map {change : Color → Color} (h : ∀ c, o'.encode? c = (o.encode? c).map change)
    (t : Tile) (p : Picture) :
    t.cells p o' = (t.cells p o).map fun cell => ⟨cell.slot, change cell.color⟩ := by
  rw [cells, cells, List.map_filterMap]
  congr 1
  funext slot
  cases t.pixel? p slot with
  | none => rfl
  | some c => rw [Option.bind_some, Option.bind_some, h, Option.map_map, Option.map_map]; rfl

end Tile

theorem kept_replacing (p : Picture) (o : Options) (blank white : Bool) :
    kept p (o.replacing blank white) = kept p o :=
  kept_congr rfl fun _ => Iff.rfl

theorem ofPicture_replacing_blank (p : Picture) (o : Options) :
    ofPicture p (o.replacing true true) = ofPicture p (o.replacing true false) := by
  -- White is replaced wherever blanks are, so nothing depends on the other option.
  rfl

theorem ofPicture_replacing (p : Picture) (o : Options)
    (h : p.width.toNat * p.height.toNat ≤ 32768) :
    ∃ tiles : List (Bool → Bool → Drawable),
      (∀ blank white, ∃ m, ofPicture p (o.replacing blank white) = .ok m ∧
        m.drawables = tiles.map fun d => d blank white) ∧
      ofPicture p (o.replacing true true) = ofPicture p (o.replacing true false) ∧
      ∀ d ∈ tiles,
        (∀ blank white, (d blank white).x = (d false false).x ∧
          (d blank white).y = (d false false).y) ∧
        ∃ cells : Bool → Bool → List Cell,
          (∀ blank white, Cell.ofChain (d blank white).directives = .ok (cells blank white)) ∧
          (∀ white, cells false true =
            (cells true white).filter fun cell => 1 ≤ cell.color.alpha) ∧
          (cells false true = (cells false false).map fun cell =>
            ⟨cell.slot, if cell.color = Color.white then Color.nearWhite else cell.color⟩) ∧
          ∀ cell ∈ cells false false, ∃ x y : Nat,
            x = (d false false).x.toInt + cell.slot.column.val ∧
            y = (d false false).y.toInt + cell.slot.row.val ∧
            p.fromBottom? x y = some cell.color := by
  replace h : p.area ≤ pixelLimit := h
  refine ⟨(kept p o).map fun t blank white => t.drawable p (o.replacing blank white),
    fun blank white => ⟨woven p (o.replacing blank white), ofPicture_of_le h, ?_⟩,
    ofPicture_replacing_blank p o, fun d hd => ?_⟩
  · rw [woven, kept_replacing, List.map_map]
    rfl
  · obtain ⟨t, ht, rfl⟩ := List.mem_map.mp hd
    have hall := mem_all_of_mem_kept ht
    refine ⟨fun blank white => by simp only [Tile.drawable, and_self],
      fun blank white => t.cells p (o.replacing blank white),
      fun blank white => Cell.ofChain_chain _,
      fun white => Tile.cells_filter (o.encode?_replacing_filter white) t p,
      Tile.cells_map o.encode?_replacing_map t p, fun cell hcell => ?_⟩
    obtain ⟨source, pixel, -, -, written⟩ := mem_cells_iff.mp hcell
    rw [Options.written_replacing_none] at written
    refine ⟨t.left + cell.slot.column.val, t.bottom + cell.slot.row.val, ?_, ?_, written ▸ pixel⟩
    · rw [Tile.x_drawable h hall, Int.natCast_add]
    · rw [Tile.y_drawable h hall, Int.natCast_add]

theorem ofPicture_replacing_white :
    let p := Picture.filled 33 9 Color.white
    p.width.toNat * p.height.toNat ≤ 32768 ∧
      ∃ m m', ofPicture p (Options.default.replacing false false) = .ok m ∧
        ofPicture p (Options.default.replacing true false) = .ok m' ∧
        ∃ d ∈ m.drawables, ∃ d' ∈ m'.drawables, d'.x = d.x ∧ d'.y = d.y ∧
          ∃ cells cells', Cell.ofChain d.directives = .ok cells ∧
            Cell.ofChain d'.directives = .ok cells' ∧
            ⟨⟨0, 0⟩, Color.white⟩ ∈ cells ∧ ⟨⟨0, 0⟩, Color.nearWhite⟩ ∈ cells' := by
  intro p
  let o := Options.default
  have small : p.width.toNat * p.height.toNat ≤ 32768 := by decide
  have corner : p.fromBottom? 32 8 = some Color.white := by
    rw [Picture.fromBottom?_filled]
    rfl
  have shown : (⟨1, 1⟩ : Tile) ∈ kept p (o.replacing false false) :=
    mem_kept.mpr ⟨32, 8, _, corner, rfl, by decide, nofun⟩
  obtain ⟨tiles, runs, -, each⟩ := ofPicture_replacing p o small
  obtain ⟨m, hm, plain⟩ := runs false false
  obtain ⟨m', hm', replaced⟩ := runs true false
  obtain ⟨-, rfl⟩ := ofPicture_eq_ok_iff.mp hm
  have drawn : Tile.drawable ⟨1, 1⟩ p (o.replacing false false) ∈
      tiles.map fun d => d false false :=
    plain ▸ List.mem_map_of_mem shown
  obtain ⟨d, hd, same⟩ := List.mem_map.mp drawn
  obtain ⟨position, cells, decoded, seen, whitened, -⟩ := each d hd
  have white : ⟨⟨0, 0⟩, Color.white⟩ ∈ cells false false := by
    have chain := decoded false false
    rw [show d false false = _ from same, Tile.drawable, Cell.ofChain_chain] at chain
    rw [← Except.ok.inj chain, mem_cells_iff]
    exact ⟨_, corner, nofun, .inl (by decide), rfl⟩
  have near : ⟨⟨0, 0⟩, Color.nearWhite⟩ ∈ cells false true :=
    whitened ▸ List.mem_map.mpr ⟨_, white, rfl⟩
  rw [seen false] at near
  exact ⟨small, _, m', hm, hm', d false false, plain ▸ List.mem_map_of_mem hd, d true false,
    replaced ▸ List.mem_map_of_mem hd, (position true false).1, (position true false).2,
    cells false false, cells true false, decoded false false, decoded true false, white,
    (List.mem_filter.mp near).1⟩

end Recolor.Mosaic
