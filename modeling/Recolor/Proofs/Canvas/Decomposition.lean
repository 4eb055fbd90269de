import Recolor.Proofs.Chain.Canonical
import Recolor.Proofs.Mosaic.Tiling
import Recolor.Proofs.Settings.Validity
import Recolor.Proofs.Text.Pieces

namespace Recolor

open Text (Stops stops_nil stops_cons not_stops_cons intRepr_append_inj natRepr_append_inj)

namespace Chain

variable {groups groups' rest rest' : List Char}

def startsGroup (c : Char) : Bool := c == ';'

theorem Groups.append_inj (hg : Groups groups) (hg' : Groups groups')
    (stops : Stops startsGroup rest) (stops' : Stops startsGroup rest')
    (h : groups ++ rest = groups' ++ rest') : groups = groups' ∧ rest = rest' := by
  induction hg generalizing groups' with
  | nil =>
    cases hg' with
    | nil => exact ⟨rfl, h⟩
    | cons _ _ _ =>
      rw [List.nil_append] at h
      exact absurd (h ▸ stops) (not_stops_cons rfl _)
  | @cons key value tail hk hv _ ih =>
    cases hg' with
    | nil =>
      rw [List.nil_append] at h
      exact absurd (h.symm ▸ stops') (not_stops_cons rfl _)
    | @cons key' value' tail' hk' hv' hr' =>
      rw [List.append_assoc, List.append_assoc] at h
      have width :
          (';' :: (key ++ '=' :: value)).length = (';' :: (key' ++ '=' :: value')).length := by
        simp [hk.1, hk'.1, hv.1, hv'.1]
      obtain ⟨first, others⟩ := List.append_inj h width
      obtain ⟨rfl, same⟩ := ih hr' others
      exact ⟨by rw [first], same⟩

end Chain

namespace Canvas

variable {c : Canvas} {d e : Drawable} {m : Mosaic} {P : Char → Bool} {rest rest' : List Char}

def opening : String :=
  "?setcolor=ffffff?replace;00000000=ffffff;ffffff00=ffffff?setcolor=ffffff?scalenearest="

def fading (c : Canvas) : List Char := (if c.fade then fadeText else "").toList

def ending (c : Canvas) : List Char := (if c.clearBackground then clearText else "").toList

def blends (c : Canvas) (ds : List Drawable) : List Char := ds.flatMap fun d => (c.blend d).toList

theorem blends_cons (c : Canvas) (d : Drawable) (ds : List Drawable) :
    c.blends (d :: ds) = (c.blend d).toList ++ c.blends ds := List.flatMap_cons

theorem blends_concat (c : Canvas) (ds : List Drawable) (d : Drawable) :
    c.blends (ds ++ [d]) = c.blends ds ++ (c.blend d).toList := by
  rw [blends, List.flatMap_append, List.flatMap_singleton, blends]

theorem toList_semicolon : ";".toList = [';'] := rfl

theorem toList_blend (c : Canvas) (d : Drawable) :
    (c.blend d).toList = "?blendmult=".toList ++ (d.texture.toList ++
      ';' :: ((-d.x).toInt.repr.toList ++
        ';' :: ((-d.y).toInt.repr.toList ++ (d.directives.toList ++ c.fading)))) := by
  unfold blend fading
  simp only [String.toList_append, List.append_assoc]
  rw [toList_semicolon, List.singleton_append, List.singleton_append]

theorem toList_header (m : Mosaic) (scale : Nat) :
    (header m scale).toList = opening.toList ++ (scale.repr.toList ++ ("?crop=0;0;".toList ++
      (m.width.toNat.repr.toList ++ ';' :: m.height.toNat.repr.toList))) := by
  unfold header opening
  simp only [String.toList_append, List.append_assoc]
  rw [toList_semicolon, List.singleton_append]

theorem toList_compose {text : String} (h : c.compose m = .ok text) :
    ∃ scale, text.toList = (header m scale).toList ++ (c.blends m.drawables ++ c.ending) := by
  obtain ⟨scale, -, rfl⟩ := Attempt.map_eq_ok_iff.mp h
  refine ⟨scale, ?_⟩
  rw [String.toList_append, String.toList_append, String.toList_join, List.flatMap_map,
    List.append_assoc]
  rfl

theorem stops_operator (h : P '?' = false) (rest : List Char) :
    Stops P (Chain.operator.toList ++ rest) := stops_cons h _

theorem stops_crop (h : P '?' = false) (rest : List Char) :
    Stops P ("?crop=0;0;".toList ++ rest) := stops_cons h _

theorem stops_fading (h : P '?' = false) (stops : Stops P rest) : Stops P (c.fading ++ rest) := by
  refine Stops.append ?_ stops
  unfold fading
  cases c.fade
  · exact stops_nil
  · exact stops_cons h _

theorem stops_blends (h : P '?' = false) (ds : List Drawable) :
    Stops P (c.blends ds ++ c.ending) := by
  cases ds with
  | nil =>
    unfold ending
    cases c.clearBackground
    · exact stops_nil
    · exact stops_cons h _
  | cons d ds =>
    rw [blends_cons, toList_blend]
    exact stops_cons h _

theorem blend_append_inj (texture : d.texture = e.texture) (hd : Chain.Canonical d.directives)
    (he : Chain.Canonical e.directives) (stops : Stops Chain.startsGroup rest)
    (stops' : Stops Chain.startsGroup rest')
    (h : (c.blend d).toList ++ rest = (c.blend e).toList ++ rest') : d = e ∧ rest = rest' := by
  obtain ⟨groups, hg, chain⟩ := hd
  obtain ⟨groups', hg', chain'⟩ := he
  simp only [toList_blend, texture, chain, chain', List.append_assoc, List.cons_append] at h
  replace h := (List.cons.inj (List.append_cancel_left (List.append_cancel_left h))).2
  obtain ⟨hx, h⟩ := intRepr_append_inj (stops_cons rfl _) (stops_cons rfl _) h
  obtain ⟨hy, h⟩ := intRepr_append_inj (stops_operator rfl _) (stops_operator rfl _)
    (List.cons.inj h).2
  obtain ⟨same, h⟩ := hg.append_inj hg' (stops_fading rfl stops) (stops_fading rfl stops')
    (List.append_cancel_left h)
  have directives : d.directives = e.directives := by
    rw [← String.toList_inj, chain, chain', same]
  have x : d.x = e.x := Int32.neg_inj.mp (Int32.toInt_inj.mp hx)
  have y : d.y = e.y := Int32.neg_inj.mp (Int32.toInt_inj.mp hy)
  refine ⟨?_, List.append_cancel_left h⟩
  cases d
  cases e
  exact (Drawable.mk.injEq ..).mpr ⟨texture, directives, x, y⟩

theorem ending_ne_blend_append (c : Canvas) (d : Drawable) (rest : List Char) :
    c.ending ≠ (c.blend d).toList ++ rest := by
  intro h
  have second : c.ending[1]? = some 'b' := by
    rw [h, toList_blend]
    rfl
  revert second
  unfold ending
  cases c.clearBackground <;> decide

theorem blends_append_inj {ds es : List Drawable} {texture : String}
    (hd : ∀ d ∈ ds, d.texture = texture ∧ Chain.Canonical d.directives)
    (he : ∀ e ∈ es, e.texture = texture ∧ Chain.Canonical e.directives)
    (h : c.blends ds ++ c.ending = c.blends es ++ c.ending) : ds = es := by
  induction ds generalizing es with
  | nil =>
    cases es with
    | nil => rfl
    | cons e es =>
      rw [blends_cons, List.append_assoc] at h
      exact absurd h (c.ending_ne_blend_append e _)
  | cons d ds ih =>
    cases es with
    | nil =>
      rw [blends_cons, List.append_assoc] at h
      exact absurd h.symm (c.ending_ne_blend_append d _)
    | cons e es =>
      rw [blends_cons, blends_cons, List.append_assoc, List.append_assoc] at h
      have first := hd d List.mem_cons_self
      have first' := he e List.mem_cons_self
      obtain ⟨rfl, others⟩ := blend_append_inj (first.1.trans first'.1.symm) first.2 first'.2
        (stops_blends rfl ds) (stops_blends rfl es) h
      rw [ih (fun d hd' => hd d (List.mem_cons_of_mem _ hd'))
        (fun e he' => he e (List.mem_cons_of_mem _ he')) others]

theorem compose_inj {a b : Mosaic} {texture text : String}
    (ha : ∀ d ∈ a.drawables, d.texture = texture ∧ Chain.Canonical d.directives)
    (hb : ∀ d ∈ b.drawables, d.texture = texture ∧ Chain.Canonical d.directives)
    (hta : c.compose a = .ok text) (htb : c.compose b = .ok text) :
    a.width = b.width ∧ a.height = b.height ∧ a.drawables = b.drawables := by
  obtain ⟨scale, htext⟩ := toList_compose hta
  obtain ⟨scale', htext'⟩ := toList_compose htb
  have h := htext.symm.trans htext'
  simp only [toList_header, List.append_assoc, List.cons_append] at h
  obtain ⟨-, h⟩ := natRepr_append_inj (stops_crop rfl _) (stops_crop rfl _)
    (List.append_cancel_left h)
  obtain ⟨width, h⟩ := natRepr_append_inj (stops_cons rfl _) (stops_cons rfl _)
    (List.append_cancel_left h)
  obtain ⟨height, h⟩ := natRepr_append_inj (stops_blends rfl _) (stops_blends rfl _)
    (List.cons.inj h).2
  exact ⟨UInt32.toNat_inj.mp width, UInt32.toNat_inj.mp height, blends_append_inj ha hb h⟩

theorem compose_congr {a b : Mosaic} (width : a.width = b.width) (height : a.height = b.height)
    (drawables : a.drawables = b.drawables) : c.compose a = c.compose b := by
  obtain ⟨_, _, _, _, _⟩ := a
  obtain ⟨_, _, _, _, _⟩ := b
  cases width
  cases height
  cases drawables
  rfl

theorem canonical_of_mem_woven {p : Picture} {o : Mosaic.Options}
    (h : d ∈ (Mosaic.woven p o).drawables) :
    d.texture = o.texture ∧ Chain.Canonical d.directives := by
  obtain ⟨t, -, rfl⟩ := List.mem_map.mp h
  exact ⟨rfl, Chain.canonical_text _⟩

theorem compose_eq_iff_same_drawables {p q : Picture} {o o' : Mosaic.Options} {a b : Mosaic}
    (scale : 1 ≤ c.baseScale) (texture : o.texture = o'.texture)
    (ha : Mosaic.ofPicture p o = .ok a) (hb : Mosaic.ofPicture q o' = .ok b) :
    ∃ s t, c.compose a = .ok s ∧ c.compose b = .ok t ∧
      (s = t ↔ a.width = b.width ∧ a.height = b.height ∧ a.drawables = b.drawables) := by
  have positive : c.baseScale ≠ 0 := by
    rintro zero
    exact absurd (zero ▸ scale) (by decide)
  obtain ⟨s, hs⟩ := (c.exists_compose_iff a).mpr positive
  obtain ⟨t, ht⟩ := (c.exists_compose_iff b).mpr positive
  obtain ⟨-, rfl⟩ := Mosaic.ofPicture_eq_ok_iff.mp ha
  obtain ⟨-, rfl⟩ := Mosaic.ofPicture_eq_ok_iff.mp hb
  refine ⟨s, t, hs, ht, ?_, ?_⟩
  · rintro rfl
    exact compose_inj (fun d => canonical_of_mem_woven)
      (fun d hd => texture ▸ canonical_of_mem_woven hd) hs ht
  · rintro ⟨width, height, drawables⟩
    exact Except.ok.inj (hs.symm.trans ((compose_congr width height drawables).trans ht))

theorem compose_ne_of_white_and_nearWhite :
    let o := Mosaic.Options.default
    ∃ a b s t, Mosaic.ofPicture (Picture.filled 1 1 Color.white) o = .ok a ∧
      Mosaic.ofPicture (Picture.filled 1 1 Color.nearWhite) o = .ok b ∧
      Canvas.default.compose a = .ok s ∧ Canvas.default.compose b = .ok t ∧ s ≠ t := by
  intro o
  have ha : Mosaic.ofPicture (Picture.filled 1 1 Color.white) o = .ok (Mosaic.woven _ o) :=
    Mosaic.ofPicture_of_le (by decide)
  have hb : Mosaic.ofPicture (Picture.filled 1 1 Color.nearWhite) o = .ok (Mosaic.woven _ o) :=
    Mosaic.ofPicture_of_le (by decide)
  obtain ⟨s, t, hs, ht, same⟩ :=
    compose_eq_iff_same_drawables (c := Canvas.default) (by decide) rfl ha hb
  refine ⟨_, _, s, t, ha, hb, hs, ht, fun equal => ?_⟩
  exact absurd (same.mp equal).2.2 (by decide +kernel)

end Canvas

end Recolor
