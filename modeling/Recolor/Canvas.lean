import Recolor.Mosaic

namespace Recolor

structure Canvas where
  baseScale : UInt32
  fade : Bool
  clearBackground : Bool
deriving DecidableEq, Repr

inductive CanvasError where
  | baseScale
deriving DecidableEq, Repr

def CanvasError.message : CanvasError → String
  | .baseScale => "base scale must be at least 1"

namespace Canvas

def default : Canvas := ⟨64, false, false⟩

def scale (c : Canvas) (m : Mosaic) : Except CanvasError Nat :=
  if c.baseScale = 0 then .error .baseScale
  else .ok (Mosaic.covering c.baseScale.toNat (max m.width.toNat m.height.toNat))

def header (m : Mosaic) (scale : Nat) : String :=
  "?setcolor=ffffff?replace;00000000=ffffff;ffffff00=ffffff?setcolor=ffffff?scalenearest=" ++
    scale.repr ++ "?crop=0;0;" ++ m.width.toNat.repr ++ ";" ++ m.height.toNat.repr

def fadeText : String := "?fade;80ff80;0.0001518"

def clearText : String := "?replace;ffffffff=00000000"

/-- Positions are negated as in the release profile: within their 32 bits, where the least one is
its own negation. -/
def blend (c : Canvas) (d : Drawable) : String :=
  "?blendmult=" ++ d.texture ++ ";" ++ (-d.x).toInt.repr ++ ";" ++ (-d.y).toInt.repr ++
    d.directives ++ if c.fade then fadeText else ""

def compose (c : Canvas) (m : Mosaic) : Except CanvasError String :=
  (c.scale m).map fun scale =>
    header m scale ++ String.join (m.drawables.map c.blend) ++
      if c.clearBackground then clearText else ""

end Canvas

end Recolor
