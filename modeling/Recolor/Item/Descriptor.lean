import Recolor.Item.Icon
import Recolor.Item.Preset
import Recolor.Json.Document

namespace Recolor

inductive Template where
  | preset (preset : Preset)
  | custom (text : String)
deriving DecidableEq, Repr

def Template.text : Template → String
  | .preset p => p.template
  | .custom text => text

inductive DescriptorFault where
  | root
  | container (key : String)
  | name
deriving DecidableEq, Repr

inductive DescriptorError where
  | unreadable
  | invalid (fault : DescriptorFault)
deriving DecidableEq, Repr

def DescriptorFault.message : DescriptorFault → String
  | .root => "invalid item template: root must be an object"
  | .container key => "invalid item template: '" ++ key ++ "' must be an object"
  | .name => "invalid item template: name must be a string"

def DescriptorError.message : DescriptorError → String
  | .unreadable => "failed to parse item template"
  | .invalid fault => fault.message

namespace Descriptor

def defaultName : String := "perfectlygenericitem"

def partName (ordinal : Nat) : String := "D_" ++ ordinal.repr

def groupJson (group : Option String) : Json :=
  .array ((group.filter fun g => g != "").toList.map .string)

def part (m : Mosaic) (group : Option String) (d : Drawable) : Json :=
  .object [("properties", .object [
    ("centered", .bool false),
    ("image", .string d.image),
    ("offset", .array [.ofBinary64 (d.blockX.add m.blockOffsetX),
      .ofBinary64 (d.blockY.add m.blockOffsetY)]),
    ("transformationGroups", groupJson group)])]

def addParts (m : Mosaic) (group : Option String) (ordinal : Nat) (parts : Json.Members) :
    List Drawable → Json.Members
  | [] => parts
  | d :: ds =>
    addParts m group (ordinal + 1) (parts.insert (partName ordinal) (part m group d)) ds

def container (key : String) (ms : Json.Members) : Except DescriptorFault Json.Members :=
  match ms.get? key with
  | none => .ok []
  | some (.object inner) => .ok inner
  | some _ => .error (.container key)

def addTo (root : Json.Members) (m : Mosaic) (group : Option String) (withIcon : Bool) :
    Except DescriptorFault Json.Members := do
  let named := (root.insertIfNew "name" (.string defaultName)).insertIfNew "count" (.integer 1)
  let parameters ← container "parameters" named
  let animation ← container "animationCustom" parameters
  let animated ← container "animatedParts" animation
  let parts ← container "parts" animated
  let parts := addParts m group 1 parts m.drawables
  let animated := animated.insert "parts" (.object parts)
  let animation := animation.insert "animatedParts" (.object animated)
  let parameters := parameters.insert "animationCustom" (.object animation)
  let parameters :=
    if withIcon then parameters.insert "inventoryIcon" m.iconJson else parameters
  return named.insert "parameters" (.object parameters)

def ofValue (m : Mosaic) (template : Json) (group : Option String) (withIcon : Bool) :
    Except DescriptorFault Json :=
  match template with
  | .object root => (addTo root m group withIcon).map .object
  | _ => .error .root

def ofText (m : Mosaic) (template : String) (group : Option String) (withIcon : Bool) :
    Except DescriptorError Json :=
  match Json.read template with
  | none => .error .unreadable
  | some value => (ofValue m value group withIcon).mapError .invalid

def stampParameters (p : Preset) : Json → Json
  | .object ms => .object (Json.Members.insert "shortdescription" (.string p.shortDescription) ms)
  | other => other

def stamp (p : Preset) : Json → Json
  | .object ms =>
    let named := Json.Members.insert "name" (.string p.itemName) ms
    match named.get? "parameters" with
    | some parameters => .object (named.insert "parameters" (stampParameters p parameters))
    | none => .object named
  | other => other

def render (m : Mosaic) (template : Template) (group : Option String) (withIcon : Bool) :
    Except DescriptorError Json :=
  let descriptor := ofText m template.text group withIcon
  match template with
  | .preset p => descriptor.map (stamp p)
  | .custom _ => descriptor

end Descriptor

end Recolor
