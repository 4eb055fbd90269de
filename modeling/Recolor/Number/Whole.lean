import Recolor.Text.Digit

namespace Recolor

inductive WholeError where
  | empty
  | digit
  | tooLarge
  | tooSmall
deriving DecidableEq, Repr

namespace Whole

def message : WholeError → String
  | .empty => "cannot parse integer from empty string"
  | .digit => "invalid digit found in string"
  | .tooLarge => "number too large to fit in target type"
  | .tooSmall => "number too small to fit in target type"

def limit : Nat := Nat.pow 2 63

def readPositive (n : Nat) : List Char → Except WholeError Int
  | [] => .ok n
  | c :: cs =>
    match Text.digitValue? c with
    | none => .error .digit
    | some d => if 10 * n + d < limit then readPositive (10 * n + d) cs else .error .tooLarge

def readNegative (n : Nat) : List Char → Except WholeError Int
  | [] => .ok (-(n : Int))
  | c :: cs =>
    match Text.digitValue? c with
    | none => .error .digit
    | some d => if 10 * n + d ≤ limit then readNegative (10 * n + d) cs else .error .tooSmall

def readChars : List Char → Except WholeError Int
  | [] => .error .empty
  | ['+'] => .error .digit
  | ['-'] => .error .digit
  | '+' :: cs => readPositive 0 cs
  | '-' :: cs => readNegative 0 cs
  | cs => readPositive 0 cs

def read (s : String) : Except WholeError Int := readChars s.toList

end Whole

end Recolor
