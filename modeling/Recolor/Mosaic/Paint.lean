import Recolor.Chain.Cell
import Recolor.Mosaic
import Recolor.Picture

namespace Recolor.Mosaic

inductive PaintError where
  | tooLarge
  | chain (cause : ChainError)
deriving DecidableEq, Repr

def PaintError.message : PaintError → String
  | .tooLarge => "the image does not fit into memory"
  | .chain cause => cause.message

/-- Counted from the bottom left of the picture. -/
structure Stroke where
  column : Nat
  row : Nat
  color : Color
deriving DecidableEq, Repr

def Stroke.paint (p : Picture) (s : Stroke) : Picture := p.putFromBottom s.column s.row s.color

def strokesOf (d : Drawable) : Except ChainError (List Stroke) :=
  (Cell.ofChain d.directives).map fun cells =>
    cells.map fun cell =>
      ⟨d.x.toInt.toNat + cell.slot.column.val, d.y.toInt.toNat + cell.slot.row.val, cell.color⟩

def strokesOfAll : List Drawable → Except ChainError (List Stroke)
  | [] => .ok []
  | d :: ds => do
    let first ← strokesOf d
    let others ← strokesOfAll ds
    return first ++ others

def strokes (m : Mosaic) : Except ChainError (List Stroke) := strokesOfAll m.drawables

def toPicture (m : Mosaic) : Except PaintError Picture :=
  match Picture.filled? m.width m.height Color.clear with
  | none => .error .tooLarge
  | some ground =>
    (m.strokes.map fun strokes => strokes.foldl Stroke.paint ground).mapError .chain

theorem toPicture_of_room {m : Mosaic}
    (room : 4 * m.width.toNat * m.height.toNat ≤ Picture.byteLimit) :
    m.toPicture = (m.strokes.map fun strokes => strokes.foldl Stroke.paint
      (Picture.filled m.width m.height Color.clear)).mapError .chain := by
  rw [toPicture, Picture.filled?_of_le room]

theorem toPicture_of_no_room {m : Mosaic}
    (large : Picture.byteLimit < 4 * m.width.toNat * m.height.toNat) :
    m.toPicture = .error .tooLarge := by
  rw [toPicture, Picture.filled?_of_lt large]

end Recolor.Mosaic
