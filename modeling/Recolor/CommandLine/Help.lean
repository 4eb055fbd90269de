import Recolor.CommandLine.Argument

namespace Recolor

def Verb.summary : Verb → String
  | .descriptor => "Print an item descriptor with one part per drawable"
  | .command => "Print a spawn command for the item descriptor"
  | .single => "Print one directive string that draws the whole image on a single texture"
  | .icon => "Print an inventory icon built from the drawables"
  | .preview => "Rebuild the image from its drawables and save it as PNG"

namespace CommandLine

def helpLine (v : Verb) : String := "  " ++ v.name ++ "\n      " ++ v.summary ++ "\n"

def settingText (s : Setting) : String := " [--" ++ s.name ++ " <" ++ s.placeholder ++ ">]"

def switchText (s : Switch) : String := " [--" ++ s.name ++ "]"

def usageLine (v : Verb) : String :=
  "  drawables " ++ v.name ++ " <INPUT>" ++
    String.join ((Scope.within v).settings.map settingText) ++
    String.join ((Scope.within v).switches.map switchText) ++ "\n"

def help : String :=
  "Turn images into recolor directives and item descriptors\n\nCommands:\n" ++
    String.join (Verb.all.map helpLine) ++ "\nUsage:\n" ++ String.join (Verb.all.map usageLine)

end CommandLine

end Recolor
