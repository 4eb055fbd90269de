import Recolor.FileTree
import Recolor.Png

namespace Recolor

/-- The format goes by the path, and the size is known before any pixel is. -/
structure Picture.Codec where
  size? : Path → ByteArray → Option (UInt32 × UInt32)
  decode? : Path → ByteArray → Option Picture
  encode? : Path → Picture → Option ByteArray

namespace Png

def isNamed (p : Path) : Bool := p.extension?.map (·.map Char.toLower) == some "png"

def codec : Picture.Codec where
  size? p bytes := if isNamed p then size? bytes else none
  decode? p bytes := if isNamed p then decode? bytes else none
  encode? p picture := if isNamed p then some (encode picture) else none

end Png

/-- None where all of a text is printed, else the part that is. -/
abbrev Printer : Type := String → Option String

structure Devices where
  codec : Picture.Codec
  write : FileTree.Writer
  print : Printer

def Devices.plain : Devices := ⟨Png.codec, FileTree.store, fun _ => none⟩

end Recolor
