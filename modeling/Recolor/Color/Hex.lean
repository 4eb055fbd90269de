import Recolor.Color
import Recolor.Text.Blank
import Recolor.Text.Digit

namespace Recolor.Color

inductive HexError where
  | empty
  | length (digits : Nat)
  | digit (found : Char)
deriving DecidableEq, Repr

def HexError.message : HexError → String
  | .empty => "empty color string"
  | .length digits =>
    "invalid color length " ++ toString digits ++ ", expected 6 (RRGGBB) or 8 (RRGGBBAA)"
  | .digit found => "invalid hex character '" ++ String.singleton found ++ "'"

def digitOfValue (n : Nat) : Char :=
  if n < 10 then Char.ofNat (48 + n) else Char.ofNat (55 + n)

def channelDigits (b : UInt8) : List Char :=
  [digitOfValue (b.toNat / 16), digitOfValue (b.toNat % 16)]

def hexDigits (c : Color) : List Char := c.channels.flatMap channelDigits

def hex (c : Color) : String := String.ofList c.hexDigits

def channel (high low : Nat) : UInt8 := UInt8.ofNat (16 * high + low)

def ofValues? : List Nat → Option Color
  | [r, r', g, g', b, b'] => some ⟨channel r r', channel g g', channel b b', 255⟩
  | [r, r', g, g', b, b', a, a'] =>
    some ⟨channel r r', channel g g', channel b b', channel a a'⟩
  | _ => none

def ofDigits (digits : List Char) : Except HexError Color :=
  if digits.isEmpty then .error .empty
  else
    match digits.find? fun c => !Text.isHexDigit c with
    | some c => .error (.digit c)
    | none =>
      match ofValues? (digits.filterMap Text.hexValue?) with
      | some color => .ok color
      | none => .error (.length digits.length)

def dropNumberSign : List Char → List Char
  | '#' :: cs => cs
  | cs => cs

def ofChars (cs : List Char) : Except HexError Color :=
  ofDigits (dropNumberSign (Text.trim cs))

def ofHex (s : String) : Except HexError Color := ofChars s.toList

def optionalOfHex (s : String) : Except HexError (Option Color) :=
  let trimmed := Text.trim s.toList
  if trimmed.isEmpty || trimmed == ['#'] then .ok none
  else (ofChars trimmed).map some

end Recolor.Color
