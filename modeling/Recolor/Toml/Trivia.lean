namespace Recolor.Toml

abbrev Reader (α : Type) : Type := List Char → Option (α × List Char)

def isBlank (c : Char) : Bool := c == ' ' || c == '\t'

def skipBlanks (cs : List Char) : List Char := cs.dropWhile isBlank

def isPlain (c : Char) : Bool := c == '\t' || (decide (0x20 ≤ c.toNat) && c.toNat != 0x7F)

def lineEnd? : List Char → Option (List Char)
  | '\n' :: cs => some cs
  | '\r' :: '\n' :: cs => some cs
  | _ => none

def endOfLine? : List Char → Option (List Char)
  | [] => some []
  | cs => lineEnd? cs

def skipComment : List Char → List Char
  | '#' :: cs => cs.dropWhile isPlain
  | cs => cs

def closeLine? (cs : List Char) : Option (List Char) :=
  endOfLine? (skipComment (skipBlanks cs))

def skipLines : Nat → List Char → List Char
  | 0, cs => cs
  | fuel + 1, cs =>
    match skipBlanks cs with
    | '#' :: cs => skipLines fuel (cs.dropWhile isPlain)
    | cs =>
      match lineEnd? cs with
      | some cs => skipLines fuel cs
      | none => cs

def skipTrivia (cs : List Char) : List Char := skipLines (cs.length + 1) cs

end Recolor.Toml
