import Recolor.Json.Document

namespace Recolor.Json.Document

def named (name : String) (members : List (Option String × Document)) : List Document :=
  (members.filter fun m => m.1 == some name).map Prod.snd

def field? (members : List (Option String × Document)) (name : String) : Option Document :=
  match named name members with
  | [value] => some value
  | _ => none

def fields? (names : List String) : Document → Option (List Document)
  | .array items => if items.length = names.length then some items else none
  | .object members =>
    if members.all fun m => m.1.isSome then names.mapM (field? members) else none
  | _ => none

def string? : Document → Option String
  | .string text => text
  | _ => none

def integer? : Document → Option Int
  | .number n => n.integer?
  | _ => none

def within? (least greatest : Int) (d : Document) : Option Int :=
  d.integer?.filter fun i => decide (least ≤ i) && decide (i ≤ greatest)

def int32? (d : Document) : Option Int32 :=
  (d.within? (-2147483648) 2147483647).map Int32.ofInt

def uint32? (d : Document) : Option UInt32 :=
  (d.within? 0 4294967295).map fun i => UInt32.ofNat i.toNat

def real? : Document → Option Binary64
  | .number n =>
    match n.integer? with
    | some i => some (Binary64.ofInt i)
    | none => n.real?
  | _ => none

def list? {α : Type} (item : Document → Option α) : Document → Option (List α)
  | .array items => items.mapM item
  | _ => none

end Recolor.Json.Document
