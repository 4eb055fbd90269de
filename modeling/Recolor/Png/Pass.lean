import Recolor.Picture
import Recolor.Png.Row

namespace Recolor.Png

structure Pass where
  left : Nat
  top : Nat
  across : Nat
  down : Nat
deriving DecidableEq, Repr

namespace Pass

def whole : List Pass := [⟨0, 0, 1, 1⟩]

def interlaced : List Pass :=
  [⟨0, 0, 8, 8⟩, ⟨4, 0, 8, 8⟩, ⟨0, 4, 4, 8⟩, ⟨2, 0, 4, 4⟩, ⟨0, 2, 2, 4⟩, ⟨1, 0, 2, 2⟩,
    ⟨0, 1, 1, 2⟩]

def count (first step limit : Nat) : Nat := (limit - first + step - 1) / step

def columns (p : Pass) (width : Nat) : Nat := count p.left p.across width

def rows (p : Pass) (height : Nat) : Nat := count p.top p.down height

def holds (p : Pass) (x y : Nat) : Bool :=
  p.left ≤ x && (x - p.left) % p.across == 0 && p.top ≤ y && (y - p.top) % p.down == 0

end Pass

structure Layer where
  pass : Pass
  columns : Nat
  bytes : ByteArray

namespace Layer

def pixel? (l : Layer) (x y : Nat) : Option Color :=
  if l.pass.holds x y then
    let column := (x - l.pass.left) / l.pass.across
    let row := (y - l.pass.top) / l.pass.down
    let start := channelCount * (row * l.columns + column)
    some ⟨byteAt l.bytes start, byteAt l.bytes (start + 1), byteAt l.bytes (start + 2),
      byteAt l.bytes (start + 3)⟩
  else none

def ofBytes? (width height : Nat) : List Pass → ByteArray → Option (List Layer)
  | [], _ => some []
  | p :: passes, told => do
    let columns := p.columns width
    let rows := p.rows height
    if columns = 0 ∨ rows = 0 then ofBytes? width height passes told
    else
      let bytes ← rows? (channelCount * columns) rows told
      let used := (channelCount * columns + 1) * rows
      let layers ← ofBytes? width height passes (told.extract used told.size)
      return ⟨p, columns, bytes⟩ :: layers

def picture (width height : UInt32) (layers : List Layer) : Picture :=
  .build width height fun x y => (layers.findSome? fun l => l.pixel? x y).getD Color.clear

end Layer

end Recolor.Png
