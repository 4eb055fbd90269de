import Recolor.Proofs.Item.Containers
import Recolor.Proofs.Item.Usable
import Recolor.Proofs.Mosaic.Tiling
import Recolor.Proofs.Number.Exact

namespace Recolor

open Json (Members)
open Mosaic (Tile ofPicture ofPicture_eq_ok_iff woven)

def Json.at? : List String → Json → Option Json
  | [], value => some value
  | key :: path, .object ms => (Members.get? key ms).bind (at? path)
  | _ :: _, _ => none

theorem Json.ofBinary64_of_value? {x : Binary64} {q : ℚ} (hx : x.value? = some q) :
    ofBinary64 x = .real x :=
  if_pos (Binary64.isFinite_of_value? hx)

namespace Blocks

theorem natAbs_toInt_le (i : Int32) : i.toInt.natAbs ≤ 2 ^ 31 := by
  have least := i.le_toInt
  have greatest := i.toInt_lt
  omega

theorem value?_add_ofPixels (i j : Int32) :
    ((ofPixels (.ofInt i.toInt)).add (ofPixels (.ofInt j.toInt))).value? =
      some ((i.toInt + j.toInt) / 8 : ℚ) := by
  have first := natAbs_toInt_le i
  have second := natAbs_toInt_le j
  have sum : (i.toInt / 8 : ℚ) + j.toInt / 8 = (i.toInt + j.toInt : ℤ) / 8 := by
    push_cast
    ring
  have exact : Binary64.Representable (i.toInt / 8 + j.toInt / 8) :=
    sum ▸ representable_eighth (by omega)
  rw [Binary64.value?_add (value?_ofPixels (by omega)) (value?_ofPixels (by omega)) exact, sum,
    Int.cast_add]

end Blocks

namespace Descriptor

variable {p : Picture} {o : Mosaic.Options} {m : Mosaic} {text : String} {group : Option String}
  {withIcon : Bool} {descriptor : Json}

def offset? (descriptor : Json) (ordinal : Nat) : Option (ℚ × ℚ) := do
  match ← descriptor.at? (way ++ [partName ordinal, "properties", "offset"]) with
  | .array [.real x, .real y] => return (← x.value?, ← y.value?)
  | _ => none

def Apart (a b : ℚ × ℚ) : Prop :=
  a.1 + 4 ≤ b.1 ∨ b.1 + 4 ≤ a.1 ∨ a.2 + 1 ≤ b.2 ∨ b.2 + 1 ≤ a.2

theorem Layers.IsNested.at?_way {l : Layers} (h : l.IsNested) (path : List String) :
    Json.at? (way ++ path) (.object l.root) = Json.at? path (.object l.parts) := by
  simp [way, Json.at?, h.parameters, h.animation, h.animated, h.parts]

theorem offset?_ofText (made : ofText m text group withIcon = .ok descriptor) {k : Nat}
    {d : Drawable} (hd : m.drawables[k]? = some d) {x y : ℚ}
    (hx : (d.blockX.add m.blockOffsetX).value? = some x)
    (hy : (d.blockY.add m.blockOffsetY).value? = some y) :
    offset? descriptor (k + 1) = some (x, y) := by
  obtain ⟨before, read, opened⟩ := usable_of_ofText made
  cases made.symm.trans (ofText_of_isOpen read opened m group withIcon)
  have fills := fills_filled before m group withIcon
  have part := fills.part k d hd
  rw [Json.ofBinary64_of_value? hx, Json.ofBinary64_of_value? hy] at part
  rw [offset?, fills.nested.at?_way]
  simp [Json.at?, part, Members.get?, hx, hy]

theorem offset?_woven (made : ofText (woven p o) text group withIcon = .ok descriptor) {k : Nat}
    {d : Drawable} (hd : (woven p o).drawables[k]? = some d) :
    offset? descriptor (k + 1) = some (((d.x.toInt : ℚ) + o.handX.toInt) / 8,
      ((d.y.toInt : ℚ) + o.handY.toInt) / 8) :=
  offset?_ofText made hd (Blocks.value?_add_ofPixels d.x o.handX)
    (Blocks.value?_add_ofPixels d.y o.handY)

theorem apart_of_ne {a b : ℚ × ℚ} {c c' r r' : ℕ} (across : b.1 - a.1 = 4 * ((c' : ℚ) - c))
    (upward : b.2 - a.2 = (r' : ℚ) - r) (differ : c = c' → r ≠ r') : Apart a b := by
  rcases lt_trichotomy c c' with right | rfl | left
  · have step : (c : ℚ) + 1 ≤ c' := by exact_mod_cast right
    exact .inl (by linarith)
  · rcases lt_or_gt_of_ne (differ rfl) with above | below
    · have step : (r : ℚ) + 1 ≤ r' := by exact_mod_cast above
      exact .inr (.inr (.inl (by linarith)))
    · have step : (r' : ℚ) + 1 ≤ r := by exact_mod_cast below
      exact .inr (.inr (.inr (by linarith)))
  · have step : (c' : ℚ) + 1 ≤ c := by exact_mod_cast left
    exact .inr (.inl (by linarith))

theorem offsets_exact (hm : ofPicture p o = .ok m)
    (made : ofText m text group withIcon = .ok descriptor) :
    (∀ k d, m.drawables[k]? = some d → offset? descriptor (k + 1) =
      some (((d.x.toInt : ℚ) + o.handX.toInt) / 8, ((d.y.toInt : ℚ) + o.handY.toInt) / 8)) ∧
    (∀ j k d e, m.drawables[j]? = some d → m.drawables[k]? = some e →
      ∃ a b, offset? descriptor (j + 1) = some a ∧ offset? descriptor (k + 1) = some b ∧
        b.1 - a.1 = ((e.x.toInt : ℚ) - d.x.toInt) / 8 ∧
        b.2 - a.2 = ((e.y.toInt : ℚ) - d.y.toInt) / 8 ∧
        b.1 - a.1 = 4 * ((e.tileColumn : ℚ) - d.tileColumn) ∧
        b.2 - a.2 = (e.tileRow : ℚ) - d.tileRow ∧
        (j ≠ k → Apart a b)) ∧
    ∀ i : Int32, let length := (Binary64.ofInt i.toInt).div (.ofNat Blocks.pixelsPerBlock)
      length.value? = some ((i.toInt : ℚ) / 8) ∧
      (Blocks.roundThousandths length).value? = some ((i.toInt : ℚ) / 8) ∧
      Blocks.thousandths ((i.toInt : ℚ) / 8) = (i.toInt : ℚ) / 8 := by
  obtain ⟨small, rfl⟩ := ofPicture_eq_ok_iff.mp hm
  refine ⟨fun k d hd => offset?_woven made hd, fun j k d e hd he => ?_, fun i => ?_⟩
  · obtain ⟨x, y, -⟩ := Mosaic.position_of_mem_woven small (List.mem_of_getElem? hd)
    obtain ⟨x', y', -⟩ := Mosaic.position_of_mem_woven small (List.mem_of_getElem? he)
    have across : ((e.x.toInt : ℚ) + o.handX.toInt) / 8 - ((d.x.toInt : ℚ) + o.handX.toInt) / 8 =
        4 * ((e.tileColumn : ℚ) - d.tileColumn) := by
      rw [x, x']
      push_cast
      ring
    have upward : ((e.y.toInt : ℚ) + o.handY.toInt) / 8 - ((d.y.toInt : ℚ) + o.handY.toInt) / 8 =
        (e.tileRow : ℚ) - d.tileRow := by
      rw [y, y']
      push_cast
      ring
    exact ⟨_, _, offset?_woven made hd, offset?_woven made he, by ring, by ring, across, upward,
      fun differ => apart_of_ne across upward fun column row =>
        differ (Mosaic.eq_of_tile_eq small hd he column row)⟩
  · have within := Blocks.natAbs_toInt_le i
    exact ⟨Blocks.value?_eighth (by omega), Blocks.value?_ofPixels (by omega),
      Blocks.thousandths_eighth i.toInt⟩

theorem offsets_exact_white :
    let p := Picture.filled 33 9 Color.white
    let o : Mosaic.Options := { Mosaic.Options.default with handX := -12, handY := 4 }
    ∃ m descriptor k d, ofPicture p o = .ok m ∧
      ofText m (Preset.template .pistol) (some "weapon") true = .ok descriptor ∧
      m.drawables[k]? = some d ∧ d.x = 32 ∧ d.y = 8 ∧
      offset? descriptor (k + 1) = some (5 / 2, 3 / 2) := by
  intro p o
  have hm : ofPicture p o = .ok (woven p o) := Mosaic.ofPicture_of_le (by decide)
  obtain ⟨before, read, opened⟩ := usable_template .pistol
  have made := ofText_of_isOpen read opened (woven p o) (some "weapon") true
  have corner : p.fromBottom? 32 8 = some Color.white := by
    rw [Picture.fromBottom?_filled]
    rfl
  have shown : (⟨1, 1⟩ : Tile) ∈ Mosaic.kept p o :=
    Mosaic.mem_kept.mpr ⟨32, 8, _, corner, rfl, by decide, nofun⟩
  obtain ⟨d, hd, dx, dy⟩ : ∃ d ∈ (woven p o).drawables, d.x = 32 ∧ d.y = 8 :=
    ⟨_, List.mem_map_of_mem shown, rfl, rfl⟩
  obtain ⟨k, hk⟩ := List.mem_iff_getElem?.mp hd
  have offset := (offsets_exact hm made).1 k d hk
  have across : (32 : Int32).toInt = 32 ∧ o.handX.toInt = -12 := by decide
  have upward : (8 : Int32).toInt = 8 ∧ o.handY.toInt = 4 := by decide
  rw [dx, dy, across.1, across.2, upward.1, upward.2] at offset
  refine ⟨_, _, k, d, hm, made, hk, dx, dy, offset.trans ?_⟩
  norm_num

end Descriptor

end Recolor
