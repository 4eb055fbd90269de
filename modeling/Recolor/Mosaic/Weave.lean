import Recolor.Chain.Cell
import Recolor.Mosaic
import Recolor.Picture

namespace Recolor

structure Mosaic.Options where
  handX : Int32
  handY : Int32
  ignored : Option Color
  replaceBlank : Bool
  replaceWhite : Bool
  texture : String
deriving DecidableEq, Repr

inductive Mosaic.WeaveError where
  | tooLarge (width height : UInt32)
  | ignoredColor (cause : Color.HexError)
deriving DecidableEq, Repr

namespace Mosaic

def pixelLimit : Nat := 32768

def defaultTexture : String := "/objects/outpost/customsign/signplaceholder.png"

def WeaveError.message : WeaveError → String
  | .tooLarge width height =>
    "the image exceeds the limit of " ++ pixelLimit.repr ++ " pixels (width: " ++
      width.toNat.repr ++ ", height: " ++ height.toNat.repr ++ ", pixels: " ++
      (width.toNat * height.toNat).repr ++ ")"
  | .ignoredColor cause => "invalid ignore color: " ++ cause.message

def checkSize (width height : UInt32) : Except WeaveError Unit :=
  if pixelLimit < width.toNat * height.toNat then .error (.tooLarge width height) else .ok ()

theorem checkSize_of_le {width height : UInt32} (small : width.toNat * height.toNat ≤ pixelLimit) :
    checkSize width height = .ok () := if_neg (Nat.not_lt.mpr small)

theorem checkSize_of_lt {width height : UInt32} (large : pixelLimit < width.toNat * height.toNat) :
    checkSize width height = .error (.tooLarge width height) := if_pos large

namespace Options

def default : Options := ⟨0, 0, none, false, false, defaultTexture⟩

def replacesWhite (o : Options) : Bool := o.replaceBlank || o.replaceWhite

def leavesOut (o : Options) (c : Color) : Bool :=
  o.ignored == some c || (c.alpha == 0 && !o.replaceBlank)

def encode? (o : Options) (c : Color) : Option Color :=
  if o.leavesOut c then none
  else if o.replacesWhite && c == Color.white then some Color.nearWhite
  else some c

end Options

structure Tile where
  column : Nat
  row : Nat
deriving DecidableEq, Repr

namespace Tile

/-- A picture without pixels has no tiles, however long its other side is. -/
def all (p : Picture) : List Tile :=
  if p.area = 0 then []
  else
    (List.range (covering Slot.tileWidth p.columns)).flatMap fun column =>
      (List.range (covering Slot.tileHeight p.rows)).map fun row => ⟨column, row⟩

def left (t : Tile) : Nat := Slot.tileWidth * t.column

def bottom (t : Tile) : Nat := Slot.tileHeight * t.row

def pixel? (t : Tile) (p : Picture) (s : Slot) : Option Color :=
  p.fromBottom? (t.left + s.column.val) (t.bottom + s.row.val)

def cells (t : Tile) (p : Picture) (o : Options) : List Cell :=
  Slot.all.filterMap fun slot =>
    ((t.pixel? p slot).bind o.encode?).map fun color => ⟨slot, color⟩

def drawable? (t : Tile) (p : Picture) (o : Options) : Option Drawable :=
  let cells := t.cells p o
  if cells.any fun cell => cell.color.isVisible then
    some ⟨o.texture, Cell.chain cells, Int32.ofNat t.left, Int32.ofNat t.bottom⟩
  else none

end Tile

def ofPicture (p : Picture) (o : Options) : Except WeaveError Mosaic := do
  checkSize p.width p.height
  return {
    drawables := (Tile.all p).filterMap fun tile => tile.drawable? p o
    width := p.width
    height := p.height
    offsetX := Binary64.ofInt o.handX.toInt
    offsetY := Binary64.ofInt o.handY.toInt }

def ofPictureIgnoring (p : Picture) (o : Options) (ignored : String) :
    Except WeaveError Mosaic :=
  match Color.optionalOfHex ignored with
  | .error cause => .error (.ignoredColor cause)
  | .ok color => ofPicture p { o with ignored := color }

end Mosaic

end Recolor
