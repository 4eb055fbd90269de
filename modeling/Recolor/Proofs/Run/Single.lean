import Recolor.Proofs.Canvas.Clearing
import Recolor.Proofs.Mosaic.TileChain
import Recolor.Proofs.Run.ValidSettings

namespace Recolor

namespace Mosaic

variable {p : Picture} {o : Options} {t : Tile}

theorem Tile.nodup_keys (t : Tile) (p : Picture) (o : Options) :
    (((t.cells p o).map Cell.replacement).map Replacement.key).Nodup := by
  rw [List.map_map]
  refine List.pairwise_map.mpr ((t.cells_pairwise p o).imp fun before same => ?_)
  exact Slot.ne_of_before before (Slot.marker_injective same)

theorem Tile.ne_white_of_mem_cells {cell : Cell}
    (replaces : o.replaceBlank = true ∨ o.replaceWhite = true) (h : cell ∈ t.cells p o) :
    cell.color ≠ Color.white := by
  obtain ⟨source, -, -, -, written⟩ := mem_cells_iff.mp h
  exact written ▸ Options.written_ne_white replaces source

theorem entries_of_mem_woven (small : p.area ≤ pixelLimit) (blank : o.replaceBlank = true)
    {d : Drawable} (hd : d ∈ (woven p o).drawables) :
    ∃ entries, Chain.text entries = d.directives ∧ (∀ e ∈ entries, e.value ≠ Color.white) ∧
      ∀ x y c, p.fromBottom? x y = some c → x / 32 = d.tileColumn → y / 8 = d.tileRow →
        o.ignored ≠ some c →
        ⟨(Slot.holding x y).marker, o.written c⟩ ∈ entries ∧
          (entries.map Replacement.key).count (Slot.holding x y).marker = 1 := by
  obtain ⟨t, ht, rfl⟩ := List.mem_map.mp hd
  refine ⟨(t.cells p o).map Cell.replacement, rfl, ?_, fun x y c hc column row kept => ?_⟩
  · intro e he
    obtain ⟨cell, hcell, rfl⟩ := List.mem_map.mp he
    exact Tile.ne_white_of_mem_cells (.inl blank) hcell
  · have tile : Tile.holding x y = t := by
      rw [← Tile.ofDrawable_drawable (o := o) small (mem_all_of_mem_kept ht), Tile.holding, column,
        row, Tile.ofDrawable]
    have cell : ⟨Slot.holding x y, o.written c⟩ ∈ t.cells p o :=
      mem_cells_iff.mpr ⟨c, by rw [← tile, Tile.pixel?_holding, hc], kept, .inr blank, rfl⟩
    have entry := List.mem_map_of_mem (f := Cell.replacement) cell
    exact ⟨entry, List.count_eq_one_of_mem (t.nodup_keys p o) (List.mem_map_of_mem entry)⟩

end Mosaic

namespace Invocation

variable {i : Invocation} {found : Settings} {baseScale : Option UInt32}
  {fade keepBackground : Bool}

theorem replaces_of_single (task : i.task = .single baseScale fade keepBackground)
    {o : Mosaic.Options} (h : (i.override.apply found).options = .ok o) :
    o.replaceBlank = true ∧ o.replaceWhite = true := by
  obtain ⟨ignored, -, rfl⟩ := Attempt.map_eq_ok_iff.mp h
  unfold override
  rw [task]
  exact ⟨rfl, rfl⟩

theorem clearBackground_of_single (task : i.task = .single baseScale fade keepBackground) :
    (i.override.apply found).canvas.clearBackground = true ↔
      found.canvas.clearBackground = true ∧ keepBackground = false := by
  unfold override
  rw [task]
  cases keepBackground <;>
    simp [Override.apply, Override.canvas, SourceArguments.override, Override.none]

end Invocation

namespace Workspace

variable {i : Invocation} {found : Settings} {p : Picture} {baseScale : Option UInt32}
  {fade keepBackground : Bool}

theorem single_paints_no_white (task : i.task = .single baseScale fade keepBackground)
    (valid : (i.override.apply found).isValid = true)
    (small : p.width.toNat * p.height.toNat ≤ 32768) :
    let s := i.override.apply found
    ∃ o m text, s.options = .ok o ∧ o.replaceBlank = true ∧ o.replaceWhite = true ∧
      Mosaic.ofPicture p o = .ok m ∧ s.canvas.compose m = .ok text ∧
      (∀ d ∈ m.drawables, ∃ entries, Chain.text entries = d.directives ∧
        (∀ e ∈ entries, e.value ≠ Color.white) ∧
        ∀ x y c, p.fromBottom? x y = some c → x / 32 = d.tileColumn → y / 8 = d.tileRow →
          o.ignored ≠ some c →
          ⟨(Slot.holding x y).marker, o.written c⟩ ∈ entries ∧
            (entries.map Replacement.key).count (Slot.holding x y).marker = 1) ∧
      Chain.read Canvas.clearText = .ok [⟨Color.white, Color.clear⟩] ∧
      (Canvas.clearText.toList <:+ text.toList ↔
        found.canvas.clearBackground = true ∧ keepBackground = false) ∧
      ∀ (w : Workspace) codec, w.settings i.config = .ok found →
        w.pictureOf codec i.source.input = .ok p →
        w.prepare codec i = .ok (s, m) ∧ w.product s m i.task = .ok (.text text) := by
  intro s
  have faultless : s.faults = [] := Settings.isValid_iff_faults.mp valid
  obtain ⟨o, ho⟩ := Settings.options_of_valid faultless
  have woven : Mosaic.ofPicture p o = .ok (Mosaic.woven p o) := Mosaic.ofPicture_of_le small
  obtain ⟨text, composed⟩ := Settings.compose_of_valid faultless (Mosaic.woven p o)
  obtain ⟨blank, white⟩ := Invocation.replaces_of_single task ho
  have canonical (d : Drawable) (hd : d ∈ (Mosaic.woven p o).drawables) :
      Chain.Canonical d.directives := (Canvas.canonical_of_mem_woven hd).2
  refine ⟨o, Mosaic.woven p o, text, ho, blank, white, woven, composed,
    fun d => Mosaic.entries_of_mem_woven small blank, by decide +kernel, ?_,
    fun w codec hfound hp => ?_⟩
  · rw [Canvas.clearText_suffix_iff canonical composed, Invocation.clearBackground_of_single task]
  · have settled : w.settingsOf i = .ok s := settles_iff.mp ⟨found, hfound, rfl, faultless⟩
    constructor
    · rw [prepare_of_settingsOf settled ho, hp, Attempt.bind_eq_ok_iff]
      exact ⟨p, rfl, by rw [woven]; rfl⟩
    · rw [task, product, composed]
      rfl

theorem single_paints_no_white_of_white :
    let i : Invocation := ⟨.single none false false, ⟨.ofText "a.png", none, none, none, none,
      false, false, none⟩, false, none⟩
    let picture := Png.encode (Picture.filled 1 1 Color.white)
    let w : Workspace := ⟨⟨[(["a.png"], .file picture)]⟩, [], none, none⟩
    (i.override.apply Settings.default).isValid = true ∧
      ∃ s m text, w.prepare Png.codec i = .ok (s, m) ∧ w.product s m i.task = .ok (.text text) ∧
        Canvas.clearText.toList <:+ text.toList ∧
        ∃ d ∈ m.drawables, ∃ entries, Chain.text entries = d.directives ∧
          (∀ e ∈ entries, e.value ≠ Color.white) ∧
          ⟨(Slot.holding 0 0).marker, Color.nearWhite⟩ ∈ entries := by
  intro i picture w
  have valid : (i.override.apply Settings.default).isValid = true := by decide
  have found : w.settings i.config = .ok Settings.default := by decide +kernel
  have shape : (w.pictureOf Png.codec i.source.input).map
      (fun p => (p.width, p.height, p.fromBottom? 0 0)) = .ok (1, 1, some Color.white) := by
    decide +kernel
  obtain ⟨p, seen, same⟩ := Attempt.map_eq_ok_iff.mp shape
  obtain ⟨width, height, corner⟩ :
      p.width = 1 ∧ p.height = 1 ∧ p.fromBottom? 0 0 = some Color.white := by
    simpa only [Prod.mk.injEq] using same
  have small : p.width.toNat * p.height.toNat ≤ 32768 := by
    rw [width, height]
    decide
  obtain ⟨o, m, text, options, blank, -, woven, -, painted, -, cleared, run⟩ :=
    single_paints_no_white rfl valid small
  obtain ⟨prepared, made⟩ := run w Png.codec found seen
  refine ⟨valid, _, m, text, prepared, made, cleared.mpr ⟨rfl, rfl⟩, ?_⟩
  obtain ⟨-, rfl⟩ := Mosaic.ofPicture_eq_ok_iff.mp woven
  have kept : o.ignored ≠ some Color.white := by
    rw [← Except.ok.inj options]
    nofun
  have shown : (⟨0, 0⟩ : Mosaic.Tile) ∈ Mosaic.kept p o :=
    Mosaic.mem_kept.mpr ⟨0, 0, _, corner, rfl, by decide, kept⟩
  have drawn := List.mem_map_of_mem (f := fun t => t.drawable p o) shown
  obtain ⟨entries, chain, colors, once⟩ := painted _ drawn
  have near : o.written Color.white = Color.nearWhite := if_pos ⟨rfl, .inl blank⟩
  exact ⟨_, drawn, entries, chain, colors, near ▸ (once 0 0 _ corner rfl rfl kept).1⟩

end Workspace

end Recolor
