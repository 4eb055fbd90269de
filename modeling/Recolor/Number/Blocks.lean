import Recolor.Number.Binary64

namespace Recolor.Blocks

def pixelsPerBlock : Nat := 8

def roundThousandths (x : Binary64) : Binary64 :=
  ((x.mul (Binary64.ofNat 1000)).round).div (Binary64.ofNat 1000)

def ofPixels (pixels : Binary64) : Binary64 :=
  roundThousandths (pixels.div (Binary64.ofNat pixelsPerBlock))

end Recolor.Blocks
