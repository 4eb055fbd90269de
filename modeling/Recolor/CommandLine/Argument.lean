import Recolor.CommandLine
import Recolor.Number.Whole

namespace Recolor

inductive Setting where
  | output
  | handX
  | handY
  | ignoreColor
  | texture
  | preset
  | template
  | group
  | baseScale
  | scale
  | config
deriving DecidableEq, Repr

inductive Switch where
  | replaceBlank
  | replaceWhite
  | noGroup
  | inventoryIcon
  | compact
  | fade
  | keepBackground
  | verbose
deriving DecidableEq, Repr

inductive Scope where
  | top
  | within (verb : Verb)
deriving DecidableEq, Repr

inductive UsageError where
  | help
  | version
  | nothingGiven
  | missingCommand
  | unknownCommand
  | unknownArgument
  | missingInput
  | missingValue
  | unneededValue
  | conflict
  | badValue (setting : Setting) (value : String) (reason : String)
deriving DecidableEq, Repr

namespace Setting

def name : Setting → String
  | .output => "output"
  | .handX => "hand-x"
  | .handY => "hand-y"
  | .ignoreColor => "ignore-color"
  | .texture => "texture"
  | .preset => "preset"
  | .template => "template"
  | .group => "group"
  | .baseScale => "base-scale"
  | .scale => "scale"
  | .config => "config"

def placeholder (s : Setting) : String :=
  s.name.map fun c => if c = '-' then '_' else c.toUpper

def takesNegative : Setting → Bool
  | .handX => true
  | .handY => true
  | _ => false

end Setting

def Switch.name : Switch → String
  | .replaceBlank => "replace-blank"
  | .replaceWhite => "replace-white"
  | .noGroup => "no-group"
  | .inventoryIcon => "inventory-icon"
  | .compact => "compact"
  | .fade => "fade"
  | .keepBackground => "keep-background"
  | .verbose => "verbose"

namespace Scope

def sourceSettings : List Setting := [.output, .handX, .handY, .ignoreColor, .texture]

def itemSettings : List Setting := [.preset, .template, .group]

def settings : Scope → List Setting
  | .top => [.config]
  | .within .descriptor => .config :: sourceSettings ++ itemSettings
  | .within .command => .config :: sourceSettings ++ itemSettings
  | .within .single => .config :: .baseScale :: sourceSettings
  | .within .icon => .config :: sourceSettings
  | .within .preview => .config :: .scale :: sourceSettings

def sourceSwitches : List Switch := [.replaceBlank, .replaceWhite]

def itemSwitches : List Switch := [.noGroup, .inventoryIcon]

def switches : Scope → List Switch
  | .top => [.verbose]
  | .within .descriptor => .verbose :: .compact :: sourceSwitches ++ itemSwitches
  | .within .command => .verbose :: sourceSwitches ++ itemSwitches
  | .within .single => .verbose :: .fade :: .keepBackground :: sourceSwitches
  | .within .icon => .verbose :: .compact :: sourceSwitches
  | .within .preview => .verbose :: sourceSwitches

end Scope

inductive Meaning where
  | setting (setting : Setting)
  | switch (switch : Switch)
  | help
  | version
deriving DecidableEq, Repr

namespace Scope

def long? (scope : Scope) (name : String) : Option Meaning :=
  match scope.settings.find? fun s => s.name == name with
  | some s => some (.setting s)
  | none =>
    match scope.switches.find? fun s => s.name == name with
    | some s => some (.switch s)
    | none =>
      if name = "help" then some .help
      else if name = "version" ∧ scope = .top then some .version
      else none

def short? (scope : Scope) (c : Char) : Option Meaning :=
  if c = 'v' then some (.switch .verbose)
  else if c = 'h' then some .help
  else if c = 'V' ∧ scope = .top then some .version
  else if c = 'o' ∧ scope ≠ .top then some (.setting .output)
  else none

end Scope

namespace Value

def path (value : String) : Except UsageError Path :=
  if value = "" then .error .missingValue else .ok (Path.ofText value)

def rangeText (least greatest : Int) : String := least.repr ++ "..=" ++ greatest.repr

def number (s : Setting) (least greatest : Int) (value : String) : Except UsageError Int :=
  match Whole.read value with
  | .error e => .error (.badValue s value (Whole.message e))
  | .ok i =>
    if least ≤ i ∧ i ≤ greatest then .ok i
    else .error (.badValue s value (i.repr ++ " is not in " ++ rangeText least greatest))

def int32 (s : Setting) (value : String) : Except UsageError Int32 :=
  (number s (-2147483648) 2147483647 value).map Int32.ofInt

def preset (value : String) : Except UsageError Preset :=
  match Preset.ofName? value with
  | some p => .ok p
  | none =>
    .error (.badValue .preset value ("unknown preset '" ++ value ++ "' (expected one of: " ++
      ", ".intercalate (Preset.all.map Preset.name) ++ ")"))

end Value

structure Given where
  input : Option Path
  output : Option Path
  handX : Option Int32
  handY : Option Int32
  ignoreColor : Option String
  texture : Option String
  preset : Option Preset
  template : Option Path
  group : Option String
  baseScale : Option UInt32
  scale : Option UInt8
  config : Option Path
  switches : List Switch

namespace Given

def none : Given :=
  ⟨.none, .none, .none, .none, .none, .none, .none, .none, .none, .none, .none, .none, []⟩

def has (g : Given) : Setting → Bool
  | .output => g.output.isSome
  | .handX => g.handX.isSome
  | .handY => g.handY.isSome
  | .ignoreColor => g.ignoreColor.isSome
  | .texture => g.texture.isSome
  | .preset => g.preset.isSome
  | .template => g.template.isSome
  | .group => g.group.isSome
  | .baseScale => g.baseScale.isSome
  | .scale => g.scale.isSome
  | .config => g.config.isSome

def set (g : Given) (s : Setting) (value : String) : Except UsageError Given :=
  match s with
  | .output => (Value.path value).map fun p => { g with output := some p }
  | .handX => (Value.int32 s value).map fun i => { g with handX := some i }
  | .handY => (Value.int32 s value).map fun i => { g with handY := some i }
  | .ignoreColor => .ok { g with ignoreColor := some value }
  | .texture => .ok { g with texture := some value }
  | .preset => (Value.preset value).map fun p => { g with preset := some p }
  | .template => (Value.path value).map fun p => { g with template := some p }
  | .group => .ok { g with group := some value }
  | .baseScale =>
    (Value.number s 1 4294967295 value).map fun i => { g with baseScale := some (.ofNat i.toNat) }
  | .scale => (Value.number s 1 16 value).map fun i => { g with scale := some (.ofNat i.toNat) }
  | .config => (Value.path value).map fun p => { g with config := some p }

def accept (g : Given) (s : Setting) (value : String) : Except UsageError Given :=
  if g.has s then .error .conflict else g.set s value

def turnOn (g : Given) (s : Switch) : Except UsageError Given :=
  if s ∈ g.switches then .error .conflict else .ok { g with switches := s :: g.switches }

def isOn (g : Given) (s : Switch) : Bool := g.switches.contains s

def acceptInput (g : Given) (value : String) : Except UsageError Given :=
  (Value.path value).map fun p => { g with input := some p }

end Given

end Recolor
