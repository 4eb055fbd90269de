import Recolor.Text.Digit
import Recolor.Toml.Trivia

namespace Recolor.Toml

def hexNumber? (cs : List Char) : Option Nat :=
  cs.foldlM (fun n c => (Text.hexValue? c).map fun d => 16 * n + d) 0

def scalar? (n : Nat) : Option Char := if n.isValidChar then some (Char.ofNat n) else none

def codePoint (digits : Nat) : Reader Char := fun cs =>
  if (cs.take digits).length = digits then do
    let c ← scalar? (← hexNumber? (cs.take digits))
    return (c, cs.drop digits)
  else none

def escape : Reader Char
  | 'b' :: cs => some ('\x08', cs)
  | 'f' :: cs => some ('\x0c', cs)
  | 'n' :: cs => some ('\n', cs)
  | 'r' :: cs => some ('\r', cs)
  | 't' :: cs => some ('\t', cs)
  | '"' :: cs => some ('"', cs)
  | '\\' :: cs => some ('\\', cs)
  | 'u' :: cs => codePoint 4 cs
  | 'U' :: cs => codePoint 8 cs
  | _ => none

def basicLine (done : List Char) : Nat → Reader String
  | 0, _ => none
  | fuel + 1, cs =>
    match cs with
    | '"' :: cs => some (String.ofList done.reverse, cs)
    | '\\' :: cs =>
      match escape cs with
      | some (c, cs) => basicLine (c :: done) fuel cs
      | none => none
    | c :: cs => if isPlain c then basicLine (c :: done) fuel cs else none
    | [] => none

def literalLine (cs : List Char) : Option (String × List Char) :=
  match cs.span fun c => c != '\'' && isPlain c with
  | (body, '\'' :: cs) => some (String.ofList body, cs)
  | _ => none

def dropFirstLineEnd (cs : List Char) : List Char := (lineEnd? cs).getD cs

def joinedLine? (cs : List Char) : Option (List Char) :=
  match lineEnd? (skipBlanks cs) with
  | none => none
  | some cs => some (skip (cs.length + 1) cs)
where
  skip : Nat → List Char → List Char
    | 0, cs => cs
    | fuel + 1, cs =>
      match lineEnd? (skipBlanks cs) with
      | some cs => skip fuel cs
      | none => skipBlanks cs

/-- Up to two quotes before the closing three belong to the string. -/
def closing? (quote : Char) (cs : List Char) : Option (List Char × List Char) :=
  match cs.span (· == quote) with
  | (quotes, rest) =>
    if 3 ≤ quotes.length ∧ quotes.length ≤ 5 then some (quotes.drop 3, rest) else none

def basicLines (done : List Char) : Nat → Reader String
  | 0, _ => none
  | fuel + 1, cs =>
    match cs with
    | '"' :: '"' :: '"' :: _ =>
      (closing? '"' cs).map fun (quotes, cs) => (String.ofList (done.reverse ++ quotes), cs)
    | '"' :: cs => basicLines ('"' :: done) fuel cs
    | '\\' :: cs =>
      match joinedLine? cs with
      | some cs => basicLines done fuel cs
      | none =>
        match escape cs with
        | some (c, cs) => basicLines (c :: done) fuel cs
        | none => none
    | c :: cs' =>
      match lineEnd? cs with
      | some cs => basicLines ('\n' :: done) fuel cs
      | none => if isPlain c then basicLines (c :: done) fuel cs' else none
    | [] => none

def literalLines (done : List Char) : Nat → Reader String
  | 0, _ => none
  | fuel + 1, cs =>
    match cs with
    | '\'' :: '\'' :: '\'' :: _ =>
      (closing? '\'' cs).map fun (quotes, cs) => (String.ofList (done.reverse ++ quotes), cs)
    | c :: cs' =>
      match lineEnd? cs with
      | some cs => literalLines ('\n' :: done) fuel cs
      | none => if isPlain c then literalLines (c :: done) fuel cs' else none
    | [] => none

def stringOnLine (quote : Char) : Reader String := fun cs =>
  if quote = '"' then basicLine [] (cs.length + 1) cs else literalLine cs

def readText : Reader String
  | '"' :: '"' :: '"' :: cs =>
    let cs := dropFirstLineEnd cs
    basicLines [] (cs.length + 1) cs
  | '\'' :: '\'' :: '\'' :: cs =>
    let cs := dropFirstLineEnd cs
    literalLines [] (cs.length + 1) cs
  | '"' :: cs => stringOnLine '"' cs
  | '\'' :: cs => stringOnLine '\'' cs
  | _ => none

end Recolor.Toml
