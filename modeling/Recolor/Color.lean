namespace Recolor

structure Color where
  red : UInt8
  green : UInt8
  blue : UInt8
  alpha : UInt8
deriving DecidableEq, Repr, Inhabited

namespace Color

def clear : Color := ⟨0, 0, 0, 0⟩

def white : Color := ⟨255, 255, 255, 255⟩

def nearWhite : Color := ⟨254, 254, 254, 255⟩

def isVisible (c : Color) : Bool := decide (1 < c.alpha)

def channels (c : Color) : List UInt8 := [c.red, c.green, c.blue, c.alpha]

end Color

end Recolor
