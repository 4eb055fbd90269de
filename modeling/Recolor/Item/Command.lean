import Recolor.Item.Descriptor
import Recolor.Json.Text

namespace Recolor.Descriptor

def isStripped (c : Char) : Bool := c == '\n' || c == '\r' || c == ' '

def strip (s : String) : String := String.ofList (s.toList.filter fun c => !isStripped c)

def member? (key : String) : Json → Option Json
  | .object ms => Json.Members.get? key ms
  | _ => none

def commandName (descriptor : Json) : Except DescriptorFault String :=
  match member? "name" descriptor with
  | none => .ok defaultName
  | some (.string name) => .ok name
  | some _ => .error .name

def commandParameters (descriptor : Json) : String :=
  match member? "parameters" descriptor with
  | some parameters => parameters.compact
  | none => "\x7b\x7d"

def command (descriptor : Json) : Except DescriptorFault String := do
  let name ← commandName descriptor
  return "/spawnitem " ++ name ++ " 1 '" ++ strip (commandParameters descriptor) ++ "'"

end Recolor.Descriptor
