import Recolor.Checksum
import Recolor.Deflate.Block

namespace Recolor.Deflate

def bigEndian : (count value : Nat) → ByteArray
  | 0, _ => ByteArray.empty
  | count + 1, value => (bigEndian count (value / 256)).push value.toUInt8

def littleEndian : (count value : Nat) → ByteArray
  | 0, _ => ByteArray.empty
  | count + 1, value => ByteArray.empty.push value.toUInt8 ++ littleEndian count (value / 256)

def header : Reader Unit := do
  let method ← number 4
  let reach ← number 4
  let flags ← number 8
  if method ≠ 8 ∨ 7 < reach ∨ flags.testBit 5 then failure
  if ((reach * 16 + method) * 256 + flags) % 31 ≠ 0 then failure

/-- The checksum has to be there, but nothing depends on it. -/
def content : Reader ByteArray := do
  header
  let bits := 8 * (← get).bytes.size
  let bytes ← blocks bits bits ByteArray.empty
  alignToByte
  let _ ← number 32
  return bytes

def unpack? (bytes : ByteArray) : Option ByteArray := (content.run ⟨bytes, 0⟩).map Prod.fst

def blockSize : Nat := 65535

def storedBlock (isLast : Bool) (bytes : ByteArray) : ByteArray :=
  ByteArray.empty.push (if isLast then 1 else 0) ++ littleEndian 2 bytes.size ++
    littleEndian 2 (65535 - bytes.size) ++ bytes

def storedBlocks (bytes : ByteArray) : ByteArray :=
  let count := max 1 ((bytes.size + blockSize - 1) / blockSize)
  (List.range count).foldl (fun done i =>
    done ++ storedBlock (i + 1 == count) (bytes.extract (i * blockSize) ((i + 1) * blockSize)))
    ByteArray.empty

def pack (bytes : ByteArray) : ByteArray :=
  bigEndian 2 0x7801 ++ storedBlocks bytes ++ bigEndian 4 (Checksum.sums bytes).toNat

end Recolor.Deflate
