import Recolor.Toml.Scalar
import Recolor.Toml.Table
import Recolor.Toml.Text

namespace Recolor.Toml

inductive Statement where
  | header (path : List String)
  | arrayHeader (path : List String)
  | assign (path : List String) (value : Toml)
deriving Repr

def depthLimit : Nat := 79

def isBareChar (c : Char) : Bool :=
  (decide ('A' ≤ c) && decide (c ≤ 'Z')) || (decide ('a' ≤ c) && decide (c ≤ 'z')) ||
    Text.isDigit c || c == '-' || c == '_'

def readName : Reader String
  | '"' :: cs => stringOnLine '"' cs
  | '\'' :: cs => stringOnLine '\'' cs
  | cs =>
    match cs.span isBareChar with
    | ([], _) => none
    | (name, cs) => some (String.ofList name, cs)

def readNames : Nat → Reader (List String)
  | 0, _ => none
  | fuel + 1, cs => do
    let (name, cs) ← readName (skipBlanks cs)
    match skipBlanks cs with
    | '.' :: cs => do
      let (names, cs) ← readNames fuel cs
      return (name :: names, cs)
    | cs => return ([name], cs)

def readKey : Reader (List String) := readNames depthLimit

def readEquals : Reader Unit
  | '=' :: cs => some ((), skipBlanks cs)
  | _ => none

mutual

def readValue (levels : Nat) : Nat → Reader Toml
  | 0, _ => none
  | fuel + 1, cs =>
    match cs with
    | '"' :: _ => (readText cs).map fun (s, cs) => (.string s, cs)
    | '\'' :: _ => (readText cs).map fun (s, cs) => (.string s, cs)
    | '[' :: cs =>
      if levels = 0 then none
      else (readItems (levels - 1) fuel cs).map fun (items, cs) => (.array items, cs)
    | '\x7b' :: cs =>
      if levels = 0 then none
      else
        match skipBlanks cs with
        | '\x7d' :: cs => some (.table [], cs)
        | cs => do
          let (assignments, cs) ← readAssignments (levels - 1) fuel cs
          let table ← Table.ofAssignments assignments
          return (.table table, cs)
    | cs => readScalar cs

def readItems (levels : Nat) : Nat → Reader (List Toml)
  | 0, _ => none
  | fuel + 1, cs =>
    match skipTrivia cs with
    | ']' :: cs => some ([], cs)
    | cs => do
      let (item, cs) ← readValue levels fuel cs
      match skipTrivia cs with
      | ']' :: cs => return ([item], cs)
      | ',' :: cs => do
        let (items, cs) ← readItems levels fuel cs
        return (item :: items, cs)
      | _ => none

def readAssignments (levels : Nat) : Nat → Reader (List (List String × Toml))
  | 0, _ => none
  | fuel + 1, cs => do
    let (key, cs) ← readKey cs
    let (_, cs) ← readEquals cs
    let (value, cs) ← readValue levels fuel cs
    match skipBlanks cs with
    | '\x7d' :: cs => return ([(key, value)], cs)
    | ',' :: cs => do
      let (assignments, cs) ← readAssignments levels fuel cs
      return ((key, value) :: assignments, cs)
    | _ => none

end

def readHeader : Reader Statement
  | '[' :: '[' :: cs => do
    let (key, cs) ← readKey cs
    match cs with
    | ']' :: ']' :: cs => return (.arrayHeader key, cs)
    | _ => none
  | '[' :: cs => do
    let (key, cs) ← readKey cs
    match cs with
    | ']' :: cs => return (.header key, cs)
    | _ => none
  | _ => none

def readAssignment : Reader Statement := fun cs => do
  let (key, cs) ← readKey cs
  let (_, cs) ← readEquals cs
  let (value, cs) ← readValue depthLimit (2 * cs.length + 2) cs
  return (.assign key value, cs)

def readStatement (cs : List Char) : Option (Statement × List Char) :=
  match cs with
  | '[' :: _ => readHeader cs
  | _ => readAssignment cs

def readStatements : Nat → List Char → Option (List Statement)
  | 0, _ => none
  | fuel + 1, cs =>
    match skipTrivia cs with
    | [] => some []
    | cs => do
      let (statement, cs) ← readStatement cs
      let cs ← closeLine? cs
      let statements ← readStatements fuel cs
      return statement :: statements

def dropByteOrderMark : List Char → List Char
  | '\uFEFF' :: cs => cs
  | cs => cs

def statements (s : String) : Option (List Statement) :=
  let cs := dropByteOrderMark s.toList
  readStatements (cs.length + 1) cs

def read (s : String) : Option Members := do
  let statements ← statements s
  let root ← statements.foldlM apply Table.Document.empty
  return root.members
where
  apply (d : Table.Document) : Statement → Option Table.Document
    | .header path => d.openTable path
    | .arrayHeader path => d.openItem path
    | .assign path value => d.assign path value

end Recolor.Toml
