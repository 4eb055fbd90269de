import Recolor.Json

namespace Recolor.Json

/-- Numbers from 10 ^ -5 to below 10 ^ 16 are written without an exponent. -/
def realLayout : Decimal.Layout := ⟨-5, 15, true⟩

def realText (x : Binary64) : String :=
  if x.isFinite then realLayout.textOf x else "null"

def controlEscape (n : Nat) : List Char :=
  ['\\', 'u', '0', '0', Nat.digitChar (n / 16), Nat.digitChar (n % 16)]

def escapeChar (c : Char) : List Char :=
  if c = '"' then ['\\', '"']
  else if c = '\\' then ['\\', '\\']
  else if c = '\x08' then ['\\', 'b']
  else if c = '\x0c' then ['\\', 'f']
  else if c = '\n' then ['\\', 'n']
  else if c = '\r' then ['\\', 'r']
  else if c = '\t' then ['\\', 't']
  else if c.toNat < 0x20 then controlEscape c.toNat
  else [c]

def quoted (s : String) : String :=
  "\"" ++ String.ofList (s.toList.flatMap escapeChar) ++ "\""

def boolText (b : Bool) : String := if b then "true" else "false"

mutual

def compact : Json → String
  | .null => "null"
  | .bool b => boolText b
  | .integer i => i.repr
  | .real x => realText x
  | .string s => quoted s
  | .array items => "[" ++ compactItems items ++ "]"
  | .object members => "\x7b" ++ compactMembers members ++ "\x7d"

def compactItems : List Json → String
  | [] => ""
  | [item] => compact item
  | item :: items => compact item ++ "," ++ compactItems items

def compactMembers : Members → String
  | [] => ""
  | [(key, value)] => quoted key ++ ":" ++ compact value
  | (key, value) :: members => quoted key ++ ":" ++ compact value ++ "," ++ compactMembers members

end

def lineBreak (level : Nat) : String :=
  "\n" ++ String.ofList (List.replicate (2 * level) ' ')

mutual

def indentedAt (level : Nat) : Json → String
  | .null => "null"
  | .bool b => boolText b
  | .integer i => i.repr
  | .real x => realText x
  | .string s => quoted s
  | .array [] => "[]"
  | .array items => "[" ++ indentedItems (level + 1) items ++ lineBreak level ++ "]"
  | .object [] => "\x7b\x7d"
  | .object members =>
    "\x7b" ++ indentedMembers (level + 1) members ++ lineBreak level ++ "\x7d"

def indentedItems (level : Nat) : List Json → String
  | [] => ""
  | [item] => lineBreak level ++ indentedAt level item
  | item :: items =>
    lineBreak level ++ indentedAt level item ++ "," ++ indentedItems level items

def indentedMembers (level : Nat) : Members → String
  | [] => ""
  | [(key, value)] => lineBreak level ++ quoted key ++ ": " ++ indentedAt level value
  | (key, value) :: members =>
    lineBreak level ++ quoted key ++ ": " ++ indentedAt level value ++ "," ++
      indentedMembers level members

end

def indented (j : Json) : String := indentedAt 0 j

end Recolor.Json
