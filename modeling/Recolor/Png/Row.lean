import Recolor.Png.Chunk

namespace Recolor.Png

def nearest (left above corner : UInt8) : UInt8 :=
  let goal : Int := left.toNat + above.toNat - corner.toNat
  let distance (c : UInt8) : Nat := (goal - c.toNat).natAbs
  if distance left ≤ distance above ∧ distance left ≤ distance corner then left
  else if distance above ≤ distance corner then above
  else corner

def expected? (filter : Nat) (left above corner : UInt8) : Option UInt8 :=
  match filter with
  | 0 => some 0
  | 1 => some left
  | 2 => some above
  | 3 => some ((left.toNat + above.toNat) / 2).toUInt8
  | 4 => some (nearest left above corner)
  | _ => none

def channelCount : Nat := 4

def byteBefore (bytes : ByteArray) (start i : Nat) : UInt8 :=
  if i < channelCount then 0 else byteAt bytes (start + i - channelCount)

def addRow (filter width : Nat) (row done : ByteArray) : Option ByteArray :=
  let start := done.size
  (List.range width).foldlM (fun done i => do
    let above := if start = 0 then 0 else byteAt done (start - width + i)
    let corner := if start = 0 then 0 else byteBefore done (start - width) i
    let expected ← expected? filter (byteBefore done start i) above corner
    return done.push (byteAt row i + expected)) done

def rows? (width height : Nat) (told : ByteArray) : Option ByteArray :=
  if told.size < (width + 1) * height then none
  else
    (List.range height).foldlM (fun done y =>
      let start := (width + 1) * y
      addRow (byteAt told start).toNat width (told.extract (start + 1) (start + 1 + width)) done)
      ByteArray.empty

end Recolor.Png
