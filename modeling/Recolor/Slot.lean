import Recolor.Color

namespace Recolor

structure Slot where
  column : Fin 32
  row : Fin 8
deriving DecidableEq, Repr

namespace Slot

def tileWidth : Nat := 32

def tileHeight : Nat := 8

def codedDecimal (n : Nat) : Nat := n / 10 * 16 + n % 10

def ofCodedDecimal? (b : Nat) : Option Nat :=
  if b % 16 < 10 then some (b / 16 * 10 + b % 16) else none

def marker (s : Slot) : Color :=
  ⟨UInt8.ofNat (codedDecimal (s.column.val + 1)), 0, UInt8.ofNat (s.row.val + 1), 1⟩

def at? (column row : Nat) : Option Slot :=
  if h : 1 ≤ column ∧ column ≤ 32 ∧ 1 ≤ row ∧ row ≤ 8 then
    some ⟨⟨column - 1, by omega⟩, ⟨row - 1, by omega⟩⟩
  else none

def ofMarker? (c : Color) : Option Slot :=
  if c.green = 0 ∧ c.alpha = 1 then
    (ofCodedDecimal? c.red.toNat).bind fun column => at? column c.blue.toNat
  else none

def all : List Slot :=
  (List.finRange 32).flatMap fun column => (List.finRange 8).map fun row => ⟨column, row⟩

def before (s t : Slot) : Prop :=
  s.column < t.column ∨ s.column = t.column ∧ s.row < t.row

instance (s t : Slot) : Decidable (s.before t) :=
  inferInstanceAs (Decidable (_ ∨ _))

end Slot

end Recolor
