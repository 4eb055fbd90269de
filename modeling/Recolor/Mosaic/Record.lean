import Recolor.Json.Record
import Recolor.Json.Text
import Recolor.Mosaic

namespace Recolor

namespace Drawable

def fieldNames : List String := ["texture", "directives", "pixel_x", "pixel_y"]

def json (d : Drawable) : Json :=
  .object [("texture", .string d.texture), ("directives", .string d.directives),
    ("pixel_x", .integer d.x.toInt), ("pixel_y", .integer d.y.toInt)]

def ofDocument? (document : Json.Document) : Option Drawable := do
  match ← document.fields? fieldNames with
  | [texture, directives, x, y] =>
    return ⟨← texture.string?, ← directives.string?, ← x.int32?, ← y.int32?⟩
  | _ => none

def read (s : String) : Option Drawable := (Json.Document.read s).bind ofDocument?

end Drawable

namespace Mosaic

def fieldNames : List String :=
  ["drawables", "image_width", "image_height", "offset_x", "offset_y"]

def json (m : Mosaic) : Json :=
  .object [("drawables", .array (m.drawables.map Drawable.json)),
    ("image_width", .integer m.width.toNat), ("image_height", .integer m.height.toNat),
    ("offset_x", .ofBinary64 m.offsetX), ("offset_y", .ofBinary64 m.offsetY)]

def ofDocument? (document : Json.Document) : Option Mosaic := do
  match ← document.fields? fieldNames with
  | [drawables, width, height, offsetX, offsetY] =>
    return ⟨← drawables.list? Drawable.ofDocument?, ← width.uint32?, ← height.uint32?,
      ← offsetX.real?, ← offsetY.real?⟩
  | _ => none

def read (s : String) : Option Mosaic := (Json.Document.read s).bind ofDocument?

end Mosaic

end Recolor
