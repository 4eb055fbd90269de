import Recolor.Canvas
import Recolor.Item.Preset
import Recolor.Mosaic.Weave
import Recolor.Path

namespace Recolor

structure Settings.Tiling where
  texture : String
  handX : Int32
  handY : Int32
  ignoreColor : String
  replaceBlank : Bool
  replaceWhite : Bool
deriving DecidableEq, Repr

structure Settings.Item where
  preset : Preset
  template : Option Path
  group : String
  inventoryIcon : Bool
deriving DecidableEq, Repr

structure Settings where
  tiling : Settings.Tiling
  item : Settings.Item
  canvas : Canvas
deriving DecidableEq, Repr

inductive SettingsFault where
  | emptyTexture
  | ignoreColor (cause : Color.HexError)
  | zeroBaseScale
deriving DecidableEq, Repr

inductive SettingsError where
  | unreadable
  | malformed
  | invalid (faults : List SettingsFault)
deriving DecidableEq, Repr

namespace SettingsFault

def field : SettingsFault → String
  | .emptyTexture => "compile.texture"
  | .ignoreColor _ => "compile.ignore_color"
  | .zeroBaseScale => "single_texture.base_scale"

def message : SettingsFault → String
  | .emptyTexture => "must be a non-empty asset path"
  | .ignoreColor cause => cause.message
  | .zeroBaseScale => "must be a positive integer"

def line (f : SettingsFault) : String := "drawables.toml: '" ++ f.field ++ "' " ++ f.message

end SettingsFault

def SettingsError.lines : SettingsError → List String
  | .unreadable => ["Failed to read config"]
  | .malformed => ["Failed to parse drawables.toml"]
  | .invalid faults =>
    "Config validation failed:" :: faults.map fun fault => "  - " ++ fault.line

def SettingsError.message (e : SettingsError) : String := "\n".intercalate e.lines

namespace Settings

def Tiling.default : Tiling := ⟨Mosaic.defaultTexture, 0, 0, "", false, false⟩

def Item.default : Item := ⟨.pistol, none, "weapon", false⟩

def defaultCanvas : Canvas := ⟨64, false, true⟩

def default : Settings := ⟨.default, .default, defaultCanvas⟩

def textureFaults (s : Settings) : List SettingsFault :=
  if s.tiling.texture = "" then [.emptyTexture] else []

def colorFaults (s : Settings) : List SettingsFault :=
  match Color.optionalOfHex s.tiling.ignoreColor with
  | .error cause => [.ignoreColor cause]
  | .ok _ => []

def scaleFaults (s : Settings) : List SettingsFault :=
  if s.canvas.baseScale = 0 then [.zeroBaseScale] else []

def faults (s : Settings) : List SettingsFault :=
  s.textureFaults ++ s.colorFaults ++ s.scaleFaults

def isValid (s : Settings) : Bool := s.faults.isEmpty

def check (s : Settings) : Except SettingsError Unit :=
  if s.isValid then .ok () else .error (.invalid s.faults)

def options (s : Settings) : Except Color.HexError Mosaic.Options :=
  (Color.optionalOfHex s.tiling.ignoreColor).map fun ignored =>
    ⟨s.tiling.handX, s.tiling.handY, ignored, s.tiling.replaceBlank, s.tiling.replaceWhite,
      s.tiling.texture⟩

def group? (s : Settings) : Option String :=
  if s.item.group = "" then none else some s.item.group

end Settings

end Recolor
