import Recolor.Png.Preface

namespace Recolor.Png

structure Opening where
  header : Header
  frames : Nat
  start : Nat
deriving DecidableEq, Repr

/-- A wrong checksum matters only where the chunk is vital, but what the chunk says counts. -/
def opening? (bytes : ByteArray) : (fuel start : Nat) → Preface → Option Opening
  | 0, _, _ => none
  | fuel + 1, start, p => do
    let name ← name? bytes start
    let size ← word? bytes start
    if p.endsAt name size then return ⟨← p.header, p.frames, start⟩
    let found ← chunk? bytes start
    let p ← p.add found.chunk
    if isVital name && !found.isIntact then none
    opening? bytes fuel found.next p

def Found.pixels? (f : Found) (frames : Nat) : Option ByteArray :=
  if f.chunk.name = framePixelsName then
    if word? f.chunk.body 0 = some frames then some (f.chunk.body.extract 4 f.chunk.body.size)
    else none
  else if f.isIntact then some f.chunk.body
  else none

def pixelBytes? (bytes : ByteArray) (name : String) :
    (fuel start frames : Nat) → ByteArray → Option ByteArray
  | 0, _, _, _ => none
  | fuel + 1, start, frames, done => do
    if (← name? bytes start) ≠ name then return done
    let found ← chunk? bytes start
    let pixels ← found.pixels? frames
    pixelBytes? bytes name fuel found.next (frames + 1) (done ++ pixels)

def Opening.pixelBytes? (o : Opening) (bytes : ByteArray) : Option ByteArray := do
  let name ← name? bytes o.start
  Png.pixelBytes? bytes name bytes.size o.start o.frames ByteArray.empty

end Recolor.Png
