import Recolor.Number.Binary64
import Recolor.Text.Digit
import Recolor.Toml
import Recolor.Toml.Trivia

namespace Recolor.Toml

def moreDigits (digit : Char → Bool) : List Char → List Char × List Char
  | '_' :: c :: cs =>
    if digit c then
      let (digits, rest) := moreDigits digit cs
      (c :: digits, rest)
    else ([], '_' :: c :: cs)
  | c :: cs =>
    if digit c then
      let (digits, rest) := moreDigits digit cs
      (c :: digits, rest)
    else ([], c :: cs)
  | [] => ([], [])

def digitsOf (digit : Char → Bool) : Reader (List Char)
  | c :: cs =>
    if digit c then
      let (digits, rest) := moreDigits digit cs
      some (c :: digits, rest)
    else none
  | [] => none

def sign : List Char → Bool × List Char
  | '-' :: cs => (true, cs)
  | '+' :: cs => (false, cs)
  | cs => (false, cs)

def decimalDigits : Reader (List Char)
  | '0' :: cs => some (['0'], cs)
  | cs => digitsOf Text.isDigit cs

def fits64 (i : Int) : Bool := decide (-9223372036854775808 ≤ i) && decide (i ≤ 9223372036854775807)

def checked (i : Int) (cs : List Char) : Option (Toml × List Char) :=
  if fits64 i then some (.integer i, cs) else none

def valueInBase (base : Nat) (digits : List Char) : Nat :=
  digits.foldl (fun n c => base * n + (Text.hexValue? c).getD 0) 0

def isOctalDigit (c : Char) : Bool := decide ('0' ≤ c) && decide (c ≤ '7')

def isBinaryDigit (c : Char) : Bool := c == '0' || c == '1'

def inBase (base : Nat) (digit : Char → Bool) : Reader Toml := fun cs =>
  match digitsOf digit cs with
  | some (digits, cs) => checked (valueInBase base digits) cs
  | none => none

def readInteger : Reader Toml
  | '0' :: 'x' :: cs => inBase 16 Text.isHexDigit cs
  | '0' :: 'o' :: cs => inBase 8 isOctalDigit cs
  | '0' :: 'b' :: cs => inBase 2 isBinaryDigit cs
  | cs =>
    let (negative, cs) := sign cs
    match decimalDigits cs with
    | some (digits, cs) =>
      let size := valueInBase 10 digits
      checked (if negative then -(size : Int) else size) cs
    | none => none

def fraction : Reader (List Char)
  | '.' :: cs => digitsOf Text.isDigit cs
  | _ => none

def exponent : Reader (Bool × List Char)
  | c :: cs =>
    if c = 'e' ∨ c = 'E' then
      let (down, cs) := sign cs
      (digitsOf Text.isDigit cs).map fun (digits, cs) => ((down, digits), cs)
    else none
  | [] => none

def overflows (digits : List Char) (power : Int) : Bool :=
  let digits := digits.dropWhile (· == '0')
  let magnitude := digits.length + power
  if digits.isEmpty || magnitude < 300 then false
  else if 320 < magnitude then true
  else
    let n := valueInBase 10 digits
    (Binary64.ofQuotient false (n * Nat.pow 10 power.toNat) (Nat.pow 10 (-power).toNat)).isInfinite

def floatParts : Reader (List Char × List Char × Option (Bool × List Char)) := fun cs => do
  let (whole, cs) ← decimalDigits cs
  match fraction cs with
  | some (places, cs) =>
    match exponent cs with
    | some (power, cs) => return ((whole, places, some power), cs)
    | none => return ((whole, places, none), cs)
  | none => do
    let (power, cs) ← exponent cs
    return ((whole, [], some power), cs)

def specialFloat : Reader Unit
  | 'i' :: 'n' :: 'f' :: cs => some ((), cs)
  | 'n' :: 'a' :: 'n' :: cs => some ((), cs)
  | _ => none

def lexeme (cs rest : List Char) : String := String.ofList (cs.take (cs.length - rest.length))

/-- A float may vanish, but a positive one may not grow beyond all finite values. -/
def readFloat : Reader Toml := fun cs =>
  let (negative, unsigned) := sign cs
  match specialFloat unsigned with
  | some (_, rest) => some (.float (lexeme cs rest), rest)
  | none => do
    let ((whole, places, power), rest) ← floatParts unsigned
    let power : Int :=
      match power with
      | some (down, digits) =>
        if down then -(valueInBase 10 digits : Int) else valueInBase 10 digits
      | none => 0
    if !negative && overflows (whole ++ places) (power - places.length) then none
    else return (.float (lexeme cs rest), rest)

def number (width least greatest : Nat) : Reader Nat := fun cs =>
  let digits := cs.take width
  let n := valueInBase 10 digits
  if digits.length = width ∧ digits.all Text.isDigit = true ∧ least ≤ n ∧ n ≤ greatest then
    some (n, cs.drop width)
  else none

def exactly (c : Char) : Reader Unit
  | d :: cs => if c = d then some ((), cs) else none
  | [] => none

def daysOf (year month : Nat) : Nat :=
  if month = 2 then
    if year % 4 = 0 ∧ (year % 100 ≠ 0 ∨ year % 400 = 0) then 29 else 28
  else if month = 4 ∨ month = 6 ∨ month = 9 ∨ month = 11 then 30
  else 31

def day : Reader Unit := fun cs => do
  let (year, cs) ← number 4 0 9999 cs
  let (_, cs) ← exactly '-' cs
  let (month, cs) ← number 2 1 12 cs
  let (_, cs) ← exactly '-' cs
  let (_, cs) ← number 2 1 (daysOf year month) cs
  return ((), cs)

def dropFraction : List Char → List Char
  | '.' :: c :: cs => if Text.isDigit c then cs.dropWhile Text.isDigit else '.' :: c :: cs
  | cs => cs

def time : Reader Unit := fun cs => do
  let (_, cs) ← number 2 0 23 cs
  let (_, cs) ← exactly ':' cs
  let (_, cs) ← number 2 0 59 cs
  let (_, cs) ← exactly ':' cs
  let (_, cs) ← number 2 0 60 cs
  return ((), dropFraction cs)

def offset : Reader Unit
  | c :: cs =>
    if c = 'Z' ∨ c = 'z' then some ((), cs)
    else if c = '+' ∨ c = '-' then do
      let (_, cs) ← number 2 0 23 cs
      let (_, cs) ← exactly ':' cs
      let (_, cs) ← number 2 0 59 cs
      return ((), cs)
    else none
  | [] => none

def timeOfDay : Reader Unit
  | c :: cs => if c = 'T' ∨ c = 't' ∨ c = ' ' then time cs else none
  | [] => none

def dateTime : Reader Unit := fun cs =>
  match day cs with
  | none => time cs
  | some (_, cs) =>
    match timeOfDay cs with
    | none => some ((), cs)
    | some (_, cs) => some ((), ((offset cs).map Prod.snd).getD cs)

def readDate : Reader Toml := fun cs =>
  (dateTime cs).map fun (_, rest) => (.date (lexeme cs rest), rest)

def readNumber : Reader Toml := fun cs =>
  match readDate cs with
  | some found => some found
  | none =>
    match readFloat cs with
    | some found => some found
    | none => readInteger cs

def readScalar : Reader Toml
  | 't' :: 'r' :: 'u' :: 'e' :: cs => some (.bool true, cs)
  | 'f' :: 'a' :: 'l' :: 's' :: 'e' :: cs => some (.bool false, cs)
  | cs => readNumber cs

end Recolor.Toml
