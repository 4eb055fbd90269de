namespace Recolor.Checksum

def cyclicBits : Nat → UInt32 → UInt32
  | 0, word => word
  | n + 1, word =>
    cyclicBits n (if word &&& 1 = 1 then (word >>> 1) ^^^ 0xEDB88320 else word >>> 1)

def cyclicByte (word : UInt32) (byte : UInt8) : UInt32 := cyclicBits 8 (word ^^^ byte.toUInt32)

def cyclic (bytes : ByteArray) : UInt32 := bytes.foldl cyclicByte 0xFFFFFFFF ^^^ 0xFFFFFFFF

structure Sums where
  ofBytes : Nat
  ofSums : Nat
deriving DecidableEq, Repr

def sumsModulus : Nat := 65521

def Sums.add (s : Sums) (byte : UInt8) : Sums :=
  let ofBytes := (s.ofBytes + byte.toNat) % sumsModulus
  ⟨ofBytes, (s.ofSums + ofBytes) % sumsModulus⟩

def sums (bytes : ByteArray) : UInt32 :=
  let s := bytes.foldl Sums.add ⟨1, 0⟩
  (s.ofSums * 65536 + s.ofBytes).toUInt32

end Recolor.Checksum
