import Recolor.FileTree
import Recolor.Settings
import Recolor.Toml.Statement

namespace Recolor.Settings

def sectionNames : List String := ["compile", "item", "single_texture"]

def tilingNames : List String :=
  ["texture", "hand_x", "hand_y", "ignore_color", "replace_blank", "replace_white"]

def itemNames : List String := ["preset", "template", "group", "inventory_icon"]

def canvasNames : List String := ["base_scale", "fade", "clear_background"]

/-- An array gives the fields in order, and a date gives none of them. -/
def fields? (names : List String) : Toml → Option (List (Option Toml))
  | .table ms => some (names.map fun name => Toml.member? name ms)
  | .array items => some (names.mapIdx fun i _ => items[i]?)
  | .date _ => some (names.map fun _ => none)
  | _ => none

def string? : Toml → Option String
  | .string s => some s
  | _ => none

def bool? : Toml → Option Bool
  | .bool b => some b
  | _ => none

def int32? : Toml → Option Int32
  | .integer i => if -2147483648 ≤ i ∧ i ≤ 2147483647 then some (Int32.ofInt i) else none
  | _ => none

def uint32? : Toml → Option UInt32
  | .integer i => if 0 ≤ i ∧ i ≤ 4294967295 then some (UInt32.ofNat i.toNat) else none
  | _ => none

def preset? : Toml → Option Preset
  | .string s => Preset.ofExactName? s
  | .table [(s, .table [])] => Preset.ofExactName? s
  | .table [(s, .array [])] => Preset.ofExactName? s
  | _ => none

def fieldOr {α : Type} (read : Toml → Option α) (default : α) : Option Toml → Option α
  | none => some default
  | some value => read value

def tiling? (value : Toml) : Option Tiling := do
  match ← fields? tilingNames value with
  | [texture, handX, handY, ignoreColor, replaceBlank, replaceWhite] =>
    return {
      texture := ← fieldOr string? Tiling.default.texture texture
      handX := ← fieldOr int32? Tiling.default.handX handX
      handY := ← fieldOr int32? Tiling.default.handY handY
      ignoreColor := ← fieldOr string? Tiling.default.ignoreColor ignoreColor
      replaceBlank := ← fieldOr bool? Tiling.default.replaceBlank replaceBlank
      replaceWhite := ← fieldOr bool? Tiling.default.replaceWhite replaceWhite }
  | _ => none

def path? (value : Toml) : Option (Option Path) :=
  (string? value).map fun s => some (Path.ofText s)

def item? (value : Toml) : Option Item := do
  match ← fields? itemNames value with
  | [preset, template, group, inventoryIcon] =>
    return {
      preset := ← fieldOr preset? Item.default.preset preset
      template := ← fieldOr path? Item.default.template template
      group := ← fieldOr string? Item.default.group group
      inventoryIcon := ← fieldOr bool? Item.default.inventoryIcon inventoryIcon }
  | _ => none

def canvas? (value : Toml) : Option Canvas := do
  match ← fields? canvasNames value with
  | [baseScale, fade, clearBackground] =>
    return {
      baseScale := ← fieldOr uint32? defaultCanvas.baseScale baseScale
      fade := ← fieldOr bool? defaultCanvas.fade fade
      clearBackground := ← fieldOr bool? defaultCanvas.clearBackground clearBackground }
  | _ => none

def ofToml? (value : Toml) : Option Settings := do
  match ← fields? sectionNames value with
  | [tiling, item, canvas] =>
    return {
      tiling := ← fieldOr tiling? Tiling.default tiling
      item := ← fieldOr item? Item.default item
      canvas := ← fieldOr canvas? defaultCanvas canvas }
  | _ => none

def read? (text : String) : Option Settings := (Toml.read text).bind fun ms => ofToml? (.table ms)

def anchored (s : Settings) (file : Path) : Settings :=
  match file.parent? with
  | none => s
  | some directory =>
    { s with item := { s.item with template := s.item.template.map directory.join } }

def ofFile (file : Path) (bytes : Option ByteArray) : Except SettingsError Settings :=
  match bytes.bind String.fromUTF8? with
  | none => .error .unreadable
  | some text =>
    match read? text with
    | none => .error .malformed
    | some settings => settings.check.map fun _ => settings.anchored file

def fileName : Path := Path.ofText "drawables.toml"

def candidates (start : Path) : List Path :=
  start.ancestors.map fun directory => directory.join fileName

def nearest? (t : FileTree) (here : Place) (start : Path) : Option Path :=
  (candidates start).find? fun file => t.contains here file

end Recolor.Settings
