import Recolor.Chain
import Recolor.Slot

namespace Recolor

structure Cell where
  slot : Slot
  color : Color
deriving DecidableEq, Repr

namespace Cell

def replacement (c : Cell) : Replacement := ⟨c.slot.marker, c.color⟩

def chain (cells : List Cell) : String := Chain.text (cells.map replacement)

def ofReplacement (index : Nat) (r : Replacement) : Except ChainError Cell :=
  match Slot.ofMarker? r.key with
  | some slot => .ok ⟨slot, r.value⟩
  | none => .error (.unknownSlot index r.key)

def ofReplacements (index : Nat) : List Replacement → Except ChainError (List Cell)
  | [] => .ok []
  | entry :: entries => do
    let cell ← ofReplacement index entry
    let cells ← ofReplacements (index + 1) entries
    return cell :: cells

def ofChain (s : String) : Except ChainError (List Cell) :=
  (Chain.read s).bind (ofReplacements 0)

end Cell

end Recolor
