import Recolor.Drawable

namespace Recolor

structure Mosaic where
  drawables : List Drawable
  width : UInt32
  height : UInt32
  offsetX : Binary64
  offsetY : Binary64
deriving DecidableEq, Repr

namespace Mosaic

def covering (size length : Nat) : Nat := (length + size - 1) / size

def tileColumns (m : Mosaic) : Nat := covering Slot.tileWidth m.width.toNat

def tileRows (m : Mosaic) : Nat := covering Slot.tileHeight m.height.toNat

def isEmpty (m : Mosaic) : Bool := m.drawables.isEmpty

def blockOffsetX (m : Mosaic) : Binary64 := Blocks.ofPixels m.offsetX

def blockOffsetY (m : Mosaic) : Binary64 := Blocks.ofPixels m.offsetY

end Mosaic

end Recolor
