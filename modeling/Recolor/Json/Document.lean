import Recolor.Json.Numeral
import Recolor.Text.Digit

namespace Recolor.Json

inductive Document where
  | null
  | bool (value : Bool)
  | number (numeral : Numeral)
  | string (text : Option String)
  | array (items : List Document)
  | object (members : List (Option String × Document))
deriving Repr, Inhabited

namespace Document

def isSpace (c : Char) : Bool := c == ' ' || c == '\t' || c == '\n' || c == '\r'

def skipSpaces (cs : List Char) : List Char := cs.dropWhile isSpace

def unit? (a b c d : Char) : Option Nat := do
  let a ← Text.hexValue? a
  let b ← Text.hexValue? b
  let c ← Text.hexValue? c
  let d ← Text.hexValue? d
  return ((16 * a + b) * 16 + c) * 16 + d

def isHighSurrogate (n : Nat) : Bool := decide (0xD800 ≤ n) && decide (n ≤ 0xDBFF)

def isLowSurrogate (n : Nat) : Bool := decide (0xDC00 ≤ n) && decide (n ≤ 0xDFFF)

def joinSurrogates (high low : Nat) : Char :=
  Char.ofNat (0x10000 + (high - 0xD800) * 0x400 + (low - 0xDC00))

def shortEscape? : Char → Option Char
  | '"' => some '"'
  | '\\' => some '\\'
  | '/' => some '/'
  | 'b' => some '\x08'
  | 'f' => some '\x0c'
  | 'n' => some '\n'
  | 'r' => some '\r'
  | 't' => some '\t'
  | _ => none

def readString (done : List Char) (whole : Bool) :
    List Char → Option (Option String × List Char)
  | '"' :: cs => some (if whole then some (String.ofList done.reverse) else none, cs)
  | '\\' :: 'u' :: a :: b :: c :: d :: '\\' :: 'u' :: a' :: b' :: c' :: d' :: cs =>
    match unit? a b c d, unit? a' b' c' d' with
    | some n, some n' =>
      if isHighSurrogate n then
        if isLowSurrogate n' then readString (joinSurrogates n n' :: done) whole cs
        else readString done false ('\\' :: 'u' :: a' :: b' :: c' :: d' :: cs)
      else if isLowSurrogate n then
        readString done false ('\\' :: 'u' :: a' :: b' :: c' :: d' :: cs)
      else readString (Char.ofNat n :: done) whole ('\\' :: 'u' :: a' :: b' :: c' :: d' :: cs)
    | _, _ => none
  | '\\' :: 'u' :: a :: b :: c :: d :: cs =>
    match unit? a b c d with
    | some n =>
      if isHighSurrogate n || isLowSurrogate n then readString done false cs
      else readString (Char.ofNat n :: done) whole cs
    | none => none
  | '\\' :: c :: cs =>
    match shortEscape? c with
    | some c => readString (c :: done) whole cs
    | none => none
  | c :: cs => if c.toNat < 0x20 then none else readString (c :: done) whole cs
  | [] => none
termination_by cs => cs.length

def readFraction : List Char → Option (List Char × List Char)
  | '.' :: cs =>
    match cs.span Text.isDigit with
    | ([], _) => none
    | (digits, rest) => some (digits, rest)
  | cs => some ([], cs)

def readSign : List Char → Bool × List Char
  | '-' :: cs => (true, cs)
  | '+' :: cs => (false, cs)
  | cs => (false, cs)

def readExponent : List Char → Option (Option (Bool × List Char) × List Char)
  | [] => some (none, [])
  | c :: cs =>
    if c = 'e' ∨ c = 'E' then
      let (down, cs) := readSign cs
      match cs.span Text.isDigit with
      | ([], _) => none
      | (digits, rest) => some (some (down, digits), rest)
    else some (none, c :: cs)

def readWhole (cs : List Char) : Option (List Char × List Char) :=
  match cs.span Text.isDigit with
  | ([], _) => none
  | ('0' :: _ :: _, _) => none
  | (digits, rest) => some (digits, rest)

def readNumeral (cs : List Char) : Option (Numeral × List Char) := do
  let (negative, cs) :=
    match cs with
    | '-' :: cs => (true, cs)
    | cs => (false, cs)
  let (whole, cs) ← readWhole cs
  let (fraction, cs) ← readFraction cs
  let (exponent, cs) ← readExponent cs
  return (⟨negative, whole, fraction, exponent⟩, cs)

mutual

def readValue : Nat → List Char → Option (Document × List Char)
  | 0, _ => none
  | fuel + 1, cs =>
    match skipSpaces cs with
    | 'n' :: 'u' :: 'l' :: 'l' :: cs => some (.null, cs)
    | 't' :: 'r' :: 'u' :: 'e' :: cs => some (.bool true, cs)
    | 'f' :: 'a' :: 'l' :: 's' :: 'e' :: cs => some (.bool false, cs)
    | '"' :: cs => (readString [] true cs).map fun (text, cs) => (.string text, cs)
    | '[' :: cs =>
      match skipSpaces cs with
      | ']' :: cs => some (.array [], cs)
      | cs => (readItems fuel cs).map fun (items, cs) => (.array items, cs)
    | '\x7b' :: cs =>
      match skipSpaces cs with
      | '\x7d' :: cs => some (.object [], cs)
      | cs => (readMembers fuel cs).map fun (members, cs) => (.object members, cs)
    | cs => (readNumeral cs).map fun (numeral, cs) => (.number numeral, cs)

def readItems : Nat → List Char → Option (List Document × List Char)
  | 0, _ => none
  | fuel + 1, cs => do
    let (item, cs) ← readValue fuel cs
    match skipSpaces cs with
    | ']' :: cs => return ([item], cs)
    | ',' :: cs => do
      let (items, cs) ← readItems fuel cs
      return (item :: items, cs)
    | _ => none

def readMembers : Nat → List Char → Option (List (Option String × Document) × List Char)
  | 0, _ => none
  | fuel + 1, cs =>
    match skipSpaces cs with
    | '"' :: cs => do
      let (key, cs) ← readString [] true cs
      match skipSpaces cs with
      | ':' :: cs => do
        let (value, cs) ← readValue fuel cs
        match skipSpaces cs with
        | '\x7d' :: cs => return ([(key, value)], cs)
        | ',' :: cs => do
          let (members, cs) ← readMembers fuel cs
          return ((key, value) :: members, cs)
        | _ => none
      | _ => none
    | _ => none

end

/-- Every two steps of the reader consume a character. -/
def readChars (cs : List Char) : Option Document :=
  match readValue (2 * cs.length + 2) cs with
  | some (document, rest) => if (skipSpaces rest).isEmpty then some document else none
  | none => none

def read (s : String) : Option Document := readChars s.toList

def nestingLimit : Nat := 127

mutual

def valueWithin? (levels : Nat) : Document → Option Json
  | .null => some .null
  | .bool b => some (.bool b)
  | .number n => n.value?
  | .string text => text.map .string
  | .array items =>
    match levels with
    | 0 => none
    | levels + 1 => (itemsWithin? levels items).map .array
  | .object members =>
    match levels with
    | 0 => none
    | levels + 1 => (membersWithin? levels [] members).map .object

def itemsWithin? (levels : Nat) : List Document → Option (List Json)
  | [] => some []
  | item :: items => do
    let value ← valueWithin? levels item
    let values ← itemsWithin? levels items
    return value :: values

def membersWithin? (levels : Nat) (done : Members) :
    List (Option String × Document) → Option Members
  | [] => some done
  | (key, item) :: members => do
    let key ← key
    let value ← valueWithin? levels item
    membersWithin? levels (Members.insert key value done) members

end

def value? (d : Document) : Option Json := valueWithin? nestingLimit d

end Document

def read (s : String) : Option Json := (Document.read s).bind Document.value?

end Recolor.Json
