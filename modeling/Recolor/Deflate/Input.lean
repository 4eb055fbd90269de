import Recolor.Deflate.PrefixCode

namespace Recolor.Deflate

structure Input where
  bytes : ByteArray
  position : Nat

abbrev Reader : Type → Type := StateT Input Option

def bit : Reader Bool := fun s =>
  if h : s.position / 8 < s.bytes.size then
    some (s.bytes[s.position / 8].toNat.testBit (s.position % 8),
      { s with position := s.position + 1 })
  else none

def number : Nat → Reader Nat
  | 0 => return 0
  | n + 1 => do
    let low ← bit
    let high ← number n
    return low.toNat + 2 * high

def symbol : PrefixCode → Reader Nat
  | .empty => failure
  | .symbol value => return value
  | .branch zero one => do
    if ← bit then symbol one else symbol zero

def alignToByte : Reader Unit := modify fun s => { s with position := (s.position + 7) / 8 * 8 }

end Recolor.Deflate
