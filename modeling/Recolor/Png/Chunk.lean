import Recolor.Deflate

namespace Recolor.Png

/-- The letters of the name stand for bytes, each for the one of its number. -/
structure Chunk where
  name : String
  body : ByteArray

def headerName : String := "IHDR"

def pixelsName : String := "IDAT"

def endName : String := "IEND"

def nameBytes (name : String) : ByteArray := ⟨(name.toList.map fun c => c.toNat.toUInt8).toArray⟩

def nameOfBytes (bytes : ByteArray) : String :=
  String.ofList (bytes.data.toList.map fun byte => Char.ofNat byte.toNat)

def isVital (name : String) : Bool := !name.toList.head?.any fun c => c.toNat.testBit 5

def Chunk.bytes (c : Chunk) : ByteArray :=
  let checked := nameBytes c.name ++ c.body
  Deflate.bigEndian 4 c.body.size ++ checked ++
    Deflate.bigEndian 4 (Checksum.cyclic checked).toNat

def byteAt (bytes : ByteArray) (i : Nat) : UInt8 := bytes[i]?.getD 0

def word? (bytes : ByteArray) (start : Nat) : Option Nat :=
  if start + 4 ≤ bytes.size then
    some ((bytes.extract start (start + 4)).foldl (fun n byte => n * 256 + byte.toNat) 0)
  else none

def name? (bytes : ByteArray) (start : Nat) : Option String :=
  if start + 8 ≤ bytes.size then some (nameOfBytes (bytes.extract (start + 4) (start + 8)))
  else none

structure Found where
  chunk : Chunk
  isIntact : Bool
  next : Nat

def chunk? (bytes : ByteArray) (start : Nat) : Option Found := do
  let size ← word? bytes start
  let name ← name? bytes start
  let checksum ← word? bytes (start + 8 + size)
  let checked := bytes.extract (start + 4) (start + 8 + size)
  return {
    chunk := ⟨name, bytes.extract (start + 8) (start + 8 + size)⟩
    isIntact := checksum == (Checksum.cyclic checked).toNat
    next := start + 12 + size }

end Recolor.Png
