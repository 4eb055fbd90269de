import Recolor.Json.Record
import Recolor.Json.Text
import Recolor.Mosaic

namespace Recolor

structure IconEntry where
  image : String
  x : Int32
  y : Int32
deriving DecidableEq, Repr

namespace IconEntry

def crop (width height : Nat) : String := "?crop;0;0;" ++ width.repr ++ ";" ++ height.repr

def remainder? (size length tile : Nat) : Option Nat :=
  if tile = Mosaic.covering size length - 1 ∧ length % size ≠ 0 then some (length % size)
  else none

def cropOf (m : Mosaic) (d : Drawable) : String :=
  match remainder? Slot.tileWidth m.width.toNat d.tileColumn,
    remainder? Slot.tileHeight m.height.toNat d.tileRow with
  | none, none => ""
  | width, height => crop (width.getD Slot.tileWidth) (height.getD Slot.tileHeight)

def ofDrawable (m : Mosaic) (d : Drawable) : IconEntry := ⟨d.image ++ cropOf m d, d.x, d.y⟩

def fieldNames : List String := ["image", "position"]

def json (e : IconEntry) : Json :=
  .object [("image", .string e.image),
    ("position", .array [.integer e.x.toInt, .integer e.y.toInt])]

def ofDocument? (document : Json.Document) : Option IconEntry := do
  match ← document.fields? fieldNames with
  | [image, position] =>
    match ← position.list? Json.Document.int32? with
    | [x, y] => return ⟨← image.string?, x, y⟩
    | _ => none
  | _ => none

def read (s : String) : Option IconEntry := (Json.Document.read s).bind ofDocument?

end IconEntry

namespace Mosaic

def icon (m : Mosaic) : List IconEntry := m.drawables.map (IconEntry.ofDrawable m)

def iconJson (m : Mosaic) : Json := .array (m.icon.map IconEntry.json)

end Mosaic

end Recolor
