import Recolor.Png.Header

namespace Recolor.Png

namespace Note

def single : List String := ["PLTE", "gAMA", "cHRM", "sRGB", "pHYs"]

def isWellFormed (h : Header) (c : Chunk) : Bool :=
  match c.name with
  | "tRNS" => !h.channels.isTranslucent
  | "gAMA" => 4 ≤ c.body.size
  | "cHRM" => 32 ≤ c.body.size
  | "sRGB" => byteAt c.body 0 ≤ 3
  | "pHYs" => 9 ≤ c.body.size && byteAt c.body 8 ≤ 1
  | "acTL" => 8 ≤ c.body.size
  | _ => true

end Note

end Recolor.Png
