import Recolor.Proofs.Chain.Cells
import Recolor.Proofs.Mosaic.Painting
import Recolor.Proofs.Number.Word

namespace Recolor.Mosaic

variable {d : Drawable} {ds : List Drawable} {chains : List (List Cell)} {x y : Nat} {c : Color}

def Last {α : Type} (P : α → Prop) (xs : List α) (x : α) : Prop :=
  ∃ before after, xs = before ++ x :: after ∧ P x ∧ ∀ z ∈ after, ¬ P z

theorem Last.holds {α : Type} {P : α → Prop} {xs : List α} {x : α} (h : Last P xs x) : P x := by
  obtain ⟨_, _, -, here, -⟩ := h
  exact here

theorem getLast?_filterMap_eq_some_iff {α β : Type} {f : α → Option β} {xs : List α} {b : β} :
    (xs.filterMap f).getLast? = some b ↔ ∃ x, Last (fun x => f x ≠ none) xs x ∧ f x = some b := by
  rw [List.getLast?_eq_some_iff]
  constructor
  · rintro ⟨first, split⟩
    obtain ⟨before, rest, rfl, -, hrest⟩ := List.filterMap_eq_append_iff.mp split
    obtain ⟨skipped, x, after, rfl, -, hx, hafter⟩ := List.filterMap_eq_cons_iff.mp hrest
    refine ⟨x, ⟨before ++ skipped, after, (List.append_assoc ..).symm, by simp [hx], ?_⟩, hx⟩
    intro z hz
    exact not_not.mpr (List.filterMap_eq_nil_iff.mp hafter z hz)
  · rintro ⟨x, ⟨before, after, rfl, -, others⟩, hx⟩
    have nothing : after.filterMap f = [] :=
      List.filterMap_eq_nil_iff.mpr fun z hz => not_not.mp (others z hz)
    exact ⟨before.filterMap f, by rw [List.filterMap_append, List.filterMap_cons_some hx, nothing]⟩

def decode (_ : Nat) (d : Drawable) : Except ChainError (List Cell) := Cell.ofChain d.directives

def Undecodable (d : Drawable) : Prop := ∃ e, Cell.ofChain d.directives = .error e

def entries (ds : List Drawable) (chains : List (List Cell)) : List (Drawable × Cell) :=
  (ds.zip chains).flatMap fun (d, cells) => cells.map fun cell => (d, cell)

theorem entries_cons (d : Drawable) (ds : List Drawable) (cells : List Cell)
    (chains : List (List Cell)) :
    entries (d :: ds) (cells :: chains) =
      cells.map (fun cell => (d, cell)) ++ entries ds chains := by
  rw [entries, List.zip_cons_cons, List.flatMap_cons, entries]

def Lands (x y : Nat) (e : Drawable × Cell) : Prop :=
  max e.1.x.toInt 0 + e.2.slot.column.val = x ∧ max e.1.y.toInt 0 + e.2.slot.row.val = y

def strokeOf (e : Drawable × Cell) : Stroke :=
  ⟨e.1.x.toInt.toNat + e.2.slot.column.val, e.1.y.toInt.toNat + e.2.slot.row.val, e.2.color⟩

theorem strokeOf_eq_iff {e : Drawable × Cell} :
    strokeOf e = ⟨x, y, c⟩ ↔ Lands x y e ∧ e.2.color = c := by
  have place : e.1.x.toInt.toNat + e.2.slot.column.val = x ∧
      e.1.y.toInt.toNat + e.2.slot.row.val = y ↔ Lands x y e := by
    unfold Lands
    omega
  simp only [strokeOf, Stroke.mk.injEq, ← place, and_assoc]

theorem colorAt?_strokeOf_eq_some_iff {e : Drawable × Cell} :
    (strokeOf e).colorAt? x y = some c ↔ Lands x y e ∧ e.2.color = c := by
  rw [Stroke.colorAt?_eq_some_iff, strokeOf_eq_iff]

theorem colorAt?_strokeOf_ne_none_iff {e : Drawable × Cell} :
    (strokeOf e).colorAt? x y ≠ none ↔ Lands x y e := by
  rw [Option.ne_none_iff_exists']
  simp only [colorAt?_strokeOf_eq_some_iff, exists_and_left, exists_eq', and_true]

theorem topmost?_strokeOf_eq_some_iff {es : List (Drawable × Cell)} :
    topmost? (es.map strokeOf) x y = some c ↔ ∃ e, Last (Lands x y) es e ∧ e.2.color = c := by
  rw [topmost?, List.filterMap_map, getLast?_filterMap_eq_some_iff]
  simp only [Function.comp_apply, colorAt?_strokeOf_ne_none_iff]
  refine exists_congr fun e => and_congr_right fun last => ?_
  exact colorAt?_strokeOf_eq_some_iff.trans (and_iff_right last.holds)

theorem topmost?_strokeOf_eq_none_iff {es : List (Drawable × Cell)} :
    topmost? (es.map strokeOf) x y = none ↔ ∀ e ∈ es, ¬ Lands x y e := by
  rw [topmost?, List.filterMap_map, List.getLast?_eq_none_iff, List.filterMap_eq_nil_iff]
  simp only [Function.comp_apply, ← colorAt?_strokeOf_ne_none_iff, not_not]

theorem strokesOfAll_eq (index : Nat) (ds : List Drawable) :
    strokesOfAll ds =
      (Attempt.each decode index ds).map fun chains => (entries ds chains).map strokeOf := by
  induction ds generalizing index with
  | nil => rfl
  | cons d ds ih =>
    rw [strokesOfAll, strokesOf, Attempt.each, decode, ih (index + 1)]
    cases Cell.ofChain d.directives with
    | error e => rfl
    | ok cells =>
      cases Attempt.each decode (index + 1) ds with
      | error e => rfl
      | ok chains =>
        change Except.ok (cells.map _ ++ (entries ds chains).map strokeOf) =
          Except.ok ((entries (d :: ds) (cells :: chains)).map strokeOf)
        rw [entries_cons, List.map_append, List.map_map]
        rfl

def putInside? (p : Picture) (x y : UInt32) (color : Color) : Option Picture :=
  if x.toNat < p.columns ∧ y.toNat < p.rows then some (p.put x.toNat y.toNat color) else none

def paintPlace? (p : Picture) (x y : UInt32) (color : Color) : Option Picture :=
  if x < p.width ∧ y < p.height then do
    let last ← Word.sub? p.height 1
    let row ← Word.sub? last y
    putInside? p x row color
  else some p

def paintCell? (d : Drawable) (p : Picture) (cell : Cell) : Option Picture := do
  let left ← Word.ofInt? (max d.x.toInt 0)
  let bottom ← Word.ofInt? (max d.y.toInt 0)
  let i ← Word.ofInt? cell.slot.column.val
  let j ← Word.ofInt? cell.slot.row.val
  let x ← Word.add? left i
  let y ← Word.add? bottom j
  paintPlace? p x y cell.color

theorem paintPlace?_eq (p : Picture) (x y : UInt32) (color : Color) :
    paintPlace? p x y color = some (Stroke.paint p ⟨x.toNat, y.toNat, color⟩) := by
  change _ = some (p.putFromBottom x.toNat y.toNat color)
  unfold paintPlace?
  have inside : x < p.width ∧ y < p.height ↔ x.toNat < p.columns ∧ y.toNat < p.rows := by
    rw [UInt32.lt_iff_toNat_lt, UInt32.lt_iff_toNat_lt, Picture.columns, Picture.rows]
  split
  · next h =>
    obtain ⟨across, upward⟩ := inside.mp h
    obtain ⟨last, row, isLast, isRow, hrow⟩ := Word.exists_sub?_sub? upward
    have same : row.toNat = p.rows - 1 - y.toNat := hrow
    have below : row.toNat < p.rows := by omega
    simp only [Option.bind_eq_bind, Option.bind_eq_some_iff]
    refine ⟨last, isLast, row, isRow, ?_⟩
    rw [putInside?, if_pos ⟨across, below⟩, Picture.putFromBottom, if_pos upward, same]
  · next h => rw [Picture.putFromBottom_of_not_lt (mt inside.mpr h)]

theorem paintCell?_eq (d : Drawable) (p : Picture) (cell : Cell) :
    paintCell? d p cell = some ((strokeOf (d, cell)).paint p) := by
  have right := d.x.toInt_lt
  have top := d.y.toInt_lt
  have column := cell.slot.column.isLt
  have row := cell.slot.row.isLt
  obtain ⟨left, edge, hleft⟩ := Word.exists_ofInt? (n := max d.x.toInt 0) (by omega) (by omega)
  obtain ⟨bottom, base, hbottom⟩ := Word.exists_ofInt? (n := max d.y.toInt 0) (by omega) (by omega)
  obtain ⟨i, slotColumn, hi⟩ := Word.exists_ofInt? (n := cell.slot.column.val) (by omega) (by omega)
  obtain ⟨j, slotRow, hj⟩ := Word.exists_ofInt? (n := cell.slot.row.val) (by omega) (by omega)
  obtain ⟨x, across, hx⟩ := Word.exists_add? (a := left) (b := i) (by omega)
  obtain ⟨y, upward, hy⟩ := Word.exists_add? (a := bottom) (b := j) (by omega)
  have target : strokeOf (d, cell) = ⟨x.toNat, y.toNat, cell.color⟩ := by
    simp only [strokeOf, Stroke.mk.injEq, and_true]
    omega
  simp only [paintCell?, Option.bind_eq_bind, Option.bind_eq_some_iff]
  refine ⟨left, edge, bottom, base, i, slotColumn, j, slotRow, x, across, y, upward, ?_⟩
  rw [target]
  exact paintPlace?_eq p x y cell.color

def paintAll? (p : Picture) : List Drawable → Option (Except ChainError Picture)
  | [] => some (.ok p)
  | d :: ds =>
    match Cell.ofChain d.directives with
    | .error e => some (.error e)
    | .ok cells => do paintAll? (← cells.foldlM (paintCell? d) p) ds

theorem foldlM_paintCell? (d : Drawable) (p : Picture) (cells : List Cell) :
    cells.foldlM (paintCell? d) p =
      some ((cells.map fun cell => strokeOf (d, cell)).foldl Stroke.paint p) := by
  induction cells generalizing p with
  | nil => rfl
  | cons cell cells ih =>
    rw [List.foldlM_cons, paintCell?_eq, Option.bind_eq_bind, Option.bind_some, ih]
    rfl

theorem paintAll?_eq (p : Picture) (ds : List Drawable) :
    paintAll? p ds = some ((strokesOfAll ds).map fun strokes => strokes.foldl Stroke.paint p) := by
  induction ds generalizing p with
  | nil => rfl
  | cons d ds ih =>
    rw [paintAll?, strokesOfAll, strokesOf]
    cases Cell.ofChain d.directives with
    | error e => rfl
    | ok cells =>
      simp only [foldlM_paintCell?, Option.bind_eq_bind, Option.bind_some, ih]
      cases strokesOfAll ds with
      | error e => rfl
      | ok others =>
        change some (Except.ok _) = some (Except.ok ((cells.map _ ++ others).foldl Stroke.paint p))
        rw [List.foldl_append]
        rfl

theorem toPicture_eq_iff_of_room {m : Mosaic} (result : Except PaintError Picture)
    (other : result ≠ .error .tooLarge) :
    m.toPicture = result ↔ 4 * m.width.toNat * m.height.toNat ≤ Picture.byteLimit ∧
      (m.strokes.map fun strokes => strokes.foldl Stroke.paint
        (Picture.filled m.width m.height Color.clear)).mapError .chain = result := by
  rcases Nat.lt_or_ge Picture.byteLimit (4 * m.width.toNat * m.height.toNat) with large | room
  · rw [toPicture_of_no_room large]
    exact ⟨fun same => absurd same.symm other, fun ⟨room, _⟩ => absurd room (Nat.not_le.mpr large)⟩
  · rw [toPicture_of_room room, and_iff_right room]

theorem toPicture_eq_tooLarge_iff {m : Mosaic} :
    m.toPicture = .error .tooLarge ↔
      Picture.byteLimit < 4 * m.width.toNat * m.height.toNat := by
  constructor
  · intro failed
    by_contra small
    rw [toPicture_of_room (Nat.not_lt.mp small)] at failed
    obtain ⟨_, -, other⟩ := Attempt.mapError_eq_error_iff.mp failed
    cases other
  · exact toPicture_of_no_room

theorem toPicture_eq_ok_iff {m : Mosaic} {q : Picture} :
    m.toPicture = .ok q ↔ 4 * m.width.toNat * m.height.toNat ≤ Picture.byteLimit ∧ ∃ chains,
      List.Forall₂ (fun d cells => Cell.ofChain d.directives = .ok cells) m.drawables chains ∧
        ((entries m.drawables chains).map strokeOf).foldl Stroke.paint
          (Picture.filled m.width m.height Color.clear) = q := by
  have fits (index : Nat) (d : Drawable) (cells : List Cell) :
      decode index d = .ok cells ↔ Cell.ofChain d.directives = .ok cells := Iff.rfl
  rw [toPicture_eq_iff_of_room (.ok q) nofun]
  refine and_congr_right fun _ => ?_
  simp only [Attempt.mapError_eq_ok_iff, strokes, strokesOfAll_eq 0, Attempt.map_eq_ok_iff,
    Attempt.each_eq_ok_iff fits]
  constructor
  · rintro ⟨_, ⟨chains, decoded, rfl⟩, painted⟩
    exact ⟨chains, decoded, painted⟩
  · rintro ⟨chains, decoded, painted⟩
    exact ⟨_, ⟨chains, decoded, rfl⟩, painted⟩

theorem exists_decode_eq_error_iff (index : Nat) (d : Drawable) :
    (∃ e, decode index d = .error e) ↔ Undecodable d :=
  Iff.rfl

theorem toPicture_eq_chain_iff {m : Mosaic} {e : ChainError} :
    m.toPicture = .error (.chain e) ↔ 4 * m.width.toNat * m.height.toNat ≤ Picture.byteLimit ∧
      ∃ k d, Attempt.First Undecodable m.drawables k d ∧ Cell.ofChain d.directives = .error e := by
  rw [toPicture_eq_iff_of_room (.error (.chain e)) nofun]
  simp only [Attempt.mapError_eq_error_iff, PaintError.chain.injEq, exists_eq_right, strokes,
    strokesOfAll_eq 0, Attempt.map_eq_error_iff,
    Attempt.each_eq_error_iff exists_decode_eq_error_iff, decode]

theorem exists_toPicture_eq_ok_iff {m : Mosaic} :
    (∃ q, m.toPicture = .ok q) ↔ 4 * m.width.toNat * m.height.toNat ≤ Picture.byteLimit ∧
      ∀ d ∈ m.drawables, ∃ cells, Cell.ofChain d.directives = .ok cells := by
  have whole (q : Picture) : (.ok q : Except PaintError Picture) ≠ .error .tooLarge := nofun
  simp only [toPicture_eq_iff_of_room _ (whole _), exists_and_left, Attempt.mapError_eq_ok_iff,
    Attempt.exists_ok_iff, strokes, strokesOfAll_eq 0, Attempt.map_eq_error_iff,
    Attempt.exists_each_eq_error_iff exists_decode_eq_error_iff, Undecodable, not_exists, not_and]

theorem pixel?_painted_eq_some_iff (width height : UInt32) (es : List (Drawable × Cell)) :
    ((es.map strokeOf).foldl Stroke.paint (Picture.filled width height Color.clear)).pixel? x y =
        some c ↔
      x < width.toNat ∧ y < height.toNat ∧
        ((∃ e, Last (Lands x (height.toNat - 1 - y)) es e ∧ e.2.color = c) ∨
          (∀ e ∈ es, ¬ Lands x (height.toNat - 1 - y) e) ∧ c = Color.clear) := by
  have rows : ((es.map strokeOf).foldl Stroke.paint
      (Picture.filled width height Color.clear)).rows = height.toNat :=
    congrArg UInt32.toNat (size_foldl_paint _ _).2
  rw [Picture.pixel?_eq_some_iff, rows, fromBottom?_foldl_paint, Picture.fromBottom?_filled,
    ← topmost?_strokeOf_eq_some_iff, ← topmost?_strokeOf_eq_none_iff, and_left_comm]
  refine and_congr_right fun below => ?_
  have above : height.toNat - 1 - y < height.toNat := by omega
  by_cases inside : x < width.toNat
  · cases topmost? (es.map strokeOf) x (height.toNat - 1 - y) <;> simp [inside, above, eq_comm]
  · simp [inside]

theorem toPicture_last_entry_wins (m : Mosaic) :
    (m.toPicture = .error .tooLarge ↔
      9223372036854775807 < 4 * m.width.toNat * m.height.toNat) ∧
    ((∃ q, m.toPicture = .ok q) ↔ 4 * m.width.toNat * m.height.toNat ≤ 9223372036854775807 ∧
      ∀ d ∈ m.drawables, ∃ cells, Cell.ofChain d.directives = .ok cells) ∧
    (∀ e, m.toPicture = .error (.chain e) ↔
      4 * m.width.toNat * m.height.toNat ≤ 9223372036854775807 ∧
        ∃ k d, Attempt.First Undecodable m.drawables k d ∧
          Cell.ofChain d.directives = .error e) ∧
    (∀ q, m.toPicture = .ok q → q.width = m.width ∧ q.height = m.height ∧ ∃ chains,
      List.Forall₂ (fun d cells => Cell.ofChain d.directives = .ok cells) m.drawables chains ∧
      ∀ x y c, q.pixel? x y = some c ↔ x < m.width.toNat ∧ y < m.height.toNat ∧
        ((∃ e, Last (Lands x (m.height.toNat - 1 - y)) (entries m.drawables chains) e ∧
            e.2.color = c) ∨
          (∀ e ∈ entries m.drawables chains, ¬ Lands x (m.height.toNat - 1 - y) e) ∧
            c = Color.clear)) ∧
    (4 * m.width.toNat * m.height.toNat ≤ 9223372036854775807 → ∃ result,
      paintAll? (Picture.filled m.width m.height Color.clear) m.drawables = some result ∧
        m.toPicture = result.mapError .chain) := by
  refine ⟨toPicture_eq_tooLarge_iff, exists_toPicture_eq_ok_iff, fun e => toPicture_eq_chain_iff,
    fun q painted => ?_, fun room => ⟨_, paintAll?_eq _ _, toPicture_of_room room⟩⟩
  obtain ⟨-, chains, decoded, rfl⟩ := toPicture_eq_ok_iff.mp painted
  obtain ⟨width, height⟩ := size_foldl_paint ((entries m.drawables chains).map strokeOf)
    (Picture.filled m.width m.height Color.clear)
  exact ⟨width, height, chains, decoded, fun x y c => pixel?_painted_eq_some_iff _ _ _⟩

theorem toPicture_too_large_for_memory :
    let bare : Mosaic := ⟨[], 4294967295, 4294967295, .ofInt 0, .ofInt 0⟩
    let spoilt : Mosaic := { bare with drawables := [⟨"", "?crop", 0, 0⟩] }
    ¬ ((∃ q, bare.toPicture = .ok q) ↔
        ∀ d ∈ bare.drawables, ∃ cells, Cell.ofChain d.directives = .ok cells) ∧
      Attempt.First Undecodable spoilt.drawables 0 ⟨"", "?crop", 0, 0⟩ ∧
      Cell.ofChain "?crop" = .error .missingOperator ∧
      spoilt.toPicture ≠ .error (.chain .missingOperator) := by
  intro bare spoilt
  have large : Picture.byteLimit < 4 * bare.width.toNat * bare.height.toNat := by decide
  have unread : Cell.ofChain "?crop" = .error .missingOperator := by decide +kernel
  refine ⟨fun succeeds => ?_, ⟨rfl, ⟨_, unread⟩, nofun⟩, unread, ?_⟩
  · obtain ⟨q, painted⟩ := succeeds.mpr nofun
    cases (toPicture_of_no_room large).symm.trans painted
  · rw [toPicture_of_no_room (m := spoilt) large]
    nofun

theorem toPicture_last_entry_wins_left_below :
    let corner : Cell := ⟨⟨0, 0⟩, Color.white⟩
    let beside : Cell := ⟨⟨1, 0⟩, Color.white⟩
    let atop : Cell := ⟨⟨0, 0⟩, Color.nearWhite⟩
    let far : Drawable := ⟨"", Cell.chain [corner], 2147483647, 0⟩
    let near : Drawable := ⟨"", Cell.chain [corner, atop, beside], -5, Int32.minValue⟩
    ∃ q, toPicture ⟨[near, far], 1, 1, .ofInt 0, .ofInt 0⟩ = .ok q ∧
      q.pixel? 0 0 = some Color.nearWhite := by
  intro corner beside atop far near
  obtain ⟨-, succeeds, -, result, -⟩ :=
    toPicture_last_entry_wins ⟨[near, far], 1, 1, .ofInt 0, .ofInt 0⟩
  have first : Cell.ofChain near.directives = .ok [corner, atop, beside] := Cell.ofChain_chain _
  have second : Cell.ofChain far.directives = .ok [corner] := Cell.ofChain_chain _
  obtain ⟨q, painted⟩ := succeeds.mpr ⟨by decide,
    List.forall_mem_cons.mpr ⟨⟨_, first⟩, List.forall_mem_singleton.mpr ⟨_, second⟩⟩⟩
  obtain ⟨-, -, chains, decoded, pixels⟩ := result q painted
  obtain _ | ⟨hnear, _ | ⟨hfar, _ | _⟩⟩ := decoded
  cases first.symm.trans hnear
  cases second.symm.trans hfar
  refine ⟨q, painted, (pixels 0 0 _).mpr ⟨by decide, by decide, .inl ⟨(near, atop), ?_, rfl⟩⟩⟩
  refine ⟨[(near, corner)], [(near, beside), (far, corner)], rfl, ⟨by decide, by decide⟩, ?_⟩
  rintro e he ⟨column, -⟩
  simp only [List.mem_cons, List.not_mem_nil, or_false] at he
  rcases he with rfl | rfl
  · exact absurd column (by decide)
  · exact absurd column (by decide)

end Recolor.Mosaic
