namespace Recolor.Text

def dropReturn (line : List Char) : List Char :=
  if line.getLast? = some '\r' then line.dropLast else line

def lines (text : String) : List String :=
  (text.splitOn "\n").map fun line => String.ofList (dropReturn line.toList)

def firstLine (text : String) : String := (lines text).headD ""

end Recolor.Text
