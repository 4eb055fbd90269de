import Recolor.Color.Hex

namespace Recolor

structure Replacement where
  key : Color
  value : Color
deriving DecidableEq, Repr

inductive ChainError where
  | missingOperator
  | malformed (index : Nat) (entry : String)
  | color (index : Nat) (cause : Color.HexError)
  | unknownSlot (index : Nat) (key : Color)
deriving DecidableEq, Repr

def ChainError.message : ChainError → String
  | .missingOperator => "directives must start with '?replace'"
  | .malformed index entry =>
    "entry " ++ toString index ++ " ('" ++ entry ++ "') is not of the form KEY=VALUE"
  | .color index cause =>
    "entry " ++ toString index ++ " has an invalid color: " ++ cause.message
  | .unknownSlot index key =>
    "entry " ++ toString index ++ " key " ++ key.hex ++ " is not a template color"

namespace Replacement

def group (r : Replacement) : String := ";" ++ r.key.hex ++ "=" ++ r.value.hex

end Replacement

namespace Chain

def operator : String := "?replace"

def text (entries : List Replacement) : String :=
  operator ++ String.join (entries.map Replacement.group)

def cut (separator : Char) (cs : List Char) : Option (List Char × List Char) :=
  match cs.span (· != separator) with
  | (left, _ :: right) => some (left, right)
  | (_, []) => none

def readColor (index : Nat) (cs : List Char) : Except ChainError Color :=
  (Color.ofChars cs).mapError (.color index)

def readGroup (index : Nat) (cs : List Char) : Except ChainError Replacement :=
  match cut '=' cs with
  | none => .error (.malformed index (String.ofList cs))
  | some (left, right) => do
    let key ← readColor index left
    let value ← readColor index right
    return ⟨key, value⟩

def readGroups (index : Nat) : List (List Char) → Except ChainError (List Replacement)
  | [] => .ok []
  | piece :: pieces => do
    let entry ← readGroup index piece
    let entries ← readGroups (index + 1) pieces
    return entry :: entries

/-- What stands between the operator and the first semicolon is not looked at. -/
def pieces (cs : List Char) : List (List Char) := (cs.splitOn ';').tail

def read (s : String) : Except ChainError (List Replacement) :=
  let cs := s.toList
  if operator.toList.isPrefixOf cs then readGroups 0 (pieces (cs.drop operator.length))
  else .error .missingOperator

end Chain

end Recolor
