namespace Recolor.Text

def escapeSign : String := "\x1b["

def strong (text : String) : String := escapeSign ++ "1m" ++ text ++ escapeSign ++ "0m"

def warning (text : String) : String := escapeSign ++ "33m" ++ text ++ escapeSign ++ "0m"

def alarm (text : String) : String :=
  escapeSign ++ "1m" ++ escapeSign ++ "31m" ++ text ++ escapeSign ++ "0m"

inductive Control where
  | nothing
  | escape
  | designation
  | sequence
  | title
  | message
deriving DecidableEq, Repr

namespace Control

def shapesLines (c : Char) : Bool := c == '\t' || c == '\n' || c == '\x0c' || c == '\r'

def isBetween (first last : Char) (c : Char) : Bool := first ≤ c && c ≤ last

def isFiller (c : Char) : Bool := isBetween ' ' '/' c

def afterEscape (c : Char) : Control :=
  if isFiller c then .designation
  else if c = '[' then .sequence
  else if c = ']' then .title
  else if c = 'P' ∨ c = 'X' ∨ c = '^' ∨ c = '_' then .message
  else if isBetween '0' '~' c then .nothing
  else .escape

def next (s : Control) (c : Char) : Control :=
  match s with
  | .nothing => .nothing
  | .escape => afterEscape c
  | .designation => if isBetween '0' '~' c then .nothing else .designation
  | .sequence => if isBetween '@' '~' c then .nothing else .sequence
  | .title => if c = '\x07' then .nothing else .title
  | .message => .message

def isShown (s : Control) (c : Char) : Bool :=
  match s with
  | .nothing => isBetween ' ' '~' c || shapesLines c
  | .title => false
  | .message => false
  | _ => shapesLines c

end Control

def plainFrom (s : Control) : List Char → List Char
  | [] => []
  | c :: cs =>
    if c = '\x18' ∨ c = '\x1a' then plainFrom .nothing cs
    else if c = '\x1b' then plainFrom .escape cs
    else if '\x7f' < c ∨ s.isShown c then c :: plainFrom .nothing cs
    else plainFrom (s.next c) cs

def plain (text : String) : String := String.ofList (plainFrom .nothing text.toList)

end Recolor.Text
