namespace Recolor.Deflate

inductive PrefixCode where
  | empty
  | symbol (value : Nat)
  | branch (zero one : PrefixCode)
deriving DecidableEq, Repr

namespace PrefixCode

def insert (value : Nat) : List Bool → PrefixCode → PrefixCode
  | [], _ => .symbol value
  | false :: word, .branch zero one => .branch (zero.insert value word) one
  | true :: word, .branch zero one => .branch zero (one.insert value word)
  | false :: word, _ => .branch (insert value word .empty) .empty
  | true :: word, _ => .branch .empty (insert value word .empty)

def word (number : Nat) : Nat → List Bool
  | 0 => []
  | length + 1 => number.testBit length :: word number length

structure Entry where
  length : Nat
  value : Nat
deriving DecidableEq, Repr

def build : List Entry → (number length : Nat) → PrefixCode → Option PrefixCode
  | [], _, _, code => some code
  | e :: entries, number, length, code =>
    let number := number * Nat.pow 2 (e.length - length)
    if Nat.pow 2 e.length ≤ number then none
    else build entries (number + 1) e.length (code.insert e.value (word number e.length))

def ofLengths? (lengths : List Nat) : Option PrefixCode :=
  let entries := lengths.zipIdx.map fun (length, value) => Entry.mk length value
  let used := entries.filter fun e => e.length != 0
  build (used.mergeSort fun a b => a.length ≤ b.length) 0 0 .empty

def isComplete : PrefixCode → Bool
  | .empty => false
  | .symbol _ => true
  | .branch zero one => zero.isComplete && one.isComplete

def completeOfLengths? (lengths : List Nat) : Option PrefixCode :=
  (ofLengths? lengths).filter isComplete

end PrefixCode

end Recolor.Deflate
