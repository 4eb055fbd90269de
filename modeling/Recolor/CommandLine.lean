import Recolor.Settings.Override

namespace Recolor

inductive Verb where
  | descriptor
  | command
  | single
  | icon
  | preview
deriving DecidableEq, Repr

def Verb.all : List Verb := [.descriptor, .command, .single, .icon, .preview]

def Verb.name : Verb → String
  | .descriptor => "descriptor"
  | .command => "command"
  | .single => "single"
  | .icon => "icon"
  | .preview => "preview"

structure SourceArguments where
  input : Path
  output : Option Path
  handX : Option Int32
  handY : Option Int32
  ignoreColor : Option String
  replaceBlank : Bool
  replaceWhite : Bool
  texture : Option String
deriving DecidableEq, Repr

structure ItemArguments where
  preset : Option Preset
  template : Option Path
  group : Option String
  noGroup : Bool
  inventoryIcon : Bool
deriving DecidableEq, Repr

inductive Task where
  | descriptor (item : ItemArguments) (compact : Bool)
  | command (item : ItemArguments)
  | single (baseScale : Option UInt32) (fade : Bool) (keepBackground : Bool)
  | icon (compact : Bool)
  | preview (scale : UInt8)
deriving DecidableEq, Repr

structure Invocation where
  task : Task
  source : SourceArguments
  verbose : Bool
  config : Option Path
deriving DecidableEq, Repr

namespace Task

def verb : Task → Verb
  | .descriptor .. => .descriptor
  | .command _ => .command
  | .single .. => .single
  | .icon _ => .icon
  | .preview _ => .preview

end Task

def Override.ifGiven (given : Bool) : Option Bool := if given then .some true else .none

namespace SourceArguments

def override (a : SourceArguments) : Override :=
  { Override.none with
    texture := a.texture
    handX := a.handX
    handY := a.handY
    ignoreColor := a.ignoreColor
    replaceBlank := Override.ifGiven a.replaceBlank
    replaceWhite := Override.ifGiven a.replaceWhite }

end SourceArguments

namespace ItemArguments

def override (a : ItemArguments) (o : Override) : Override :=
  { o with
    preset := a.preset
    template := a.template
    group := if a.noGroup then some "" else a.group
    inventoryIcon := Override.ifGiven a.inventoryIcon }

end ItemArguments

def Invocation.override (i : Invocation) : Override :=
  let base := i.source.override
  match i.task with
  | .descriptor item _ => item.override base
  | .command item => item.override base
  | .single baseScale fade keepBackground =>
    { base with
      replaceBlank := some true
      replaceWhite := some true
      baseScale := baseScale
      fade := Override.ifGiven fade
      clearBackground := if keepBackground then some false else none }
  | .icon _ => { base with handX := some 0, handY := some 0 }
  | .preview _ => base

end Recolor
