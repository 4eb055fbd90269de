import Recolor.Png.Chunk

namespace Recolor.Png

inductive Channels where
  | gray
  | color
  | palette
  | translucentGray
  | translucentColor
deriving DecidableEq, Repr

namespace Channels

def code : Channels → UInt8
  | .gray => 0
  | .color => 2
  | .palette => 3
  | .translucentGray => 4
  | .translucentColor => 6

def all : List Channels := [.gray, .color, .palette, .translucentGray, .translucentColor]

def ofCode? (code : UInt8) : Option Channels := all.find? fun c => c.code == code

def depths : Channels → List UInt8
  | .gray => [1, 2, 4, 8, 16]
  | .palette => [1, 2, 4, 8]
  | _ => [8, 16]

def isTranslucent : Channels → Bool
  | .translucentGray => true
  | .translucentColor => true
  | _ => false

end Channels

structure Header where
  width : UInt32
  height : UInt32
  depth : UInt8
  channels : Channels
  interlaced : Bool
deriving DecidableEq, Repr

namespace Header

def plain (width height : UInt32) : Header := ⟨width, height, 8, .translucentColor, false⟩

def hasPlainPixels (h : Header) : Bool := h.depth == 8 && h.channels == .translucentColor

def ofBody? (body : ByteArray) : Option Header := do
  let width ← word? body 0
  let height ← word? body 4
  let channels ← Channels.ofCode? (byteAt body 9)
  let depth := byteAt body 8
  let order := byteAt body 12
  if body.size < 13 ∨ width = 0 ∨ height = 0 ∨ depth ∉ channels.depths then none
  if byteAt body 10 ≠ 0 ∨ byteAt body 11 ≠ 0 ∨ 1 < order then none
  return ⟨width.toUInt32, height.toUInt32, depth, channels, order == 1⟩

def chunk (h : Header) : Chunk :=
  let last : ByteArray := ⟨#[h.depth, h.channels.code, 0, 0, if h.interlaced then 1 else 0]⟩
  ⟨headerName, Deflate.bigEndian 4 h.width.toNat ++ Deflate.bigEndian 4 h.height.toNat ++ last⟩

end Header

end Recolor.Png
