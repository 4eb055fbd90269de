import Recolor.Png.Opening
import Recolor.Png.Pass

namespace Recolor.Png

def signature : ByteArray := ⟨#[137, 80, 78, 71, 13, 10, 26, 10]⟩

def rowLimit : Nat := Nat.pow 2 29

def open? (bytes : ByteArray) : Option Opening := do
  if bytes.extract 0 8 != signature then none
  let opening ← opening? bytes bytes.size 8 Preface.empty
  if rowLimit < channelCount * opening.header.width.toNat then none
  return opening

def size? (bytes : ByteArray) : Option (UInt32 × UInt32) :=
  (open? bytes).map fun opening => (opening.header.width, opening.header.height)

def passes (h : Header) : List Pass := if h.interlaced then Pass.interlaced else Pass.whole

def decode? (bytes : ByteArray) : Option Picture := do
  let opening ← open? bytes
  let header := opening.header
  if !header.hasPlainPixels then none
  let told ← Deflate.unpack? (← opening.pixelBytes? bytes)
  let layers ← Layer.ofBytes? header.width.toNat header.height.toNat (passes header) told
  return Layer.picture header.width header.height layers

def addColor (done : ByteArray) (c : Color) : ByteArray :=
  (((done.push c.red).push c.green).push c.blue).push c.alpha

def plainRows (p : Picture) : ByteArray :=
  (List.range p.rows).foldl (fun done y =>
    (List.range p.columns).foldl (fun done x =>
      addColor done ((p.pixel? x y).getD Color.clear)) (done.push 0)) ByteArray.empty

def encode (p : Picture) : ByteArray :=
  signature ++ (Header.plain p.width p.height).chunk.bytes ++
    Chunk.bytes ⟨pixelsName, Deflate.pack (plainRows p)⟩ ++ Chunk.bytes ⟨endName, ByteArray.empty⟩

end Recolor.Png
