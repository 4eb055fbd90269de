import Recolor.Number.Blocks
import Recolor.Slot

namespace Recolor

structure Drawable where
  texture : String
  directives : String
  x : Int32
  y : Int32
deriving DecidableEq, Repr

namespace Drawable

def image (d : Drawable) : String := d.texture ++ d.directives

def blockX (d : Drawable) : Binary64 := Blocks.ofPixels (Binary64.ofInt d.x.toInt)

def blockY (d : Drawable) : Binary64 := Blocks.ofPixels (Binary64.ofInt d.y.toInt)

def tileColumn (d : Drawable) : Nat := d.x.toInt.toNat / Slot.tileWidth

def tileRow (d : Drawable) : Nat := d.y.toInt.toNat / Slot.tileHeight

end Drawable

end Recolor
