import Recolor.Number.Binary64

namespace Recolor

structure Decimal where
  digits : Nat
  exponent : Int
deriving DecidableEq, Repr

namespace Decimal

def compareScaled (a : Nat) (e : Int) (d : Nat) (k : Int) : Ordering :=
  compare (a * Nat.pow 2 e.toNat * Nat.pow 10 (-k).toNat)
    (d * Nat.pow 10 k.toNat * Nat.pow 2 (-e).toNat)

/-- The ends of the interval that rounds to `m * 2 ^ e`, in quarters of the last place: below a
power of two the spacing is half of that above. -/
def bounds (m : Nat) (e : Int) : Nat × Nat :=
  if m = Binary64.mantissaLimit / 2 ∧ Binary64.leastExponent < e then (4 * m - 1, 4 * m + 2)
  else (4 * m - 2, 4 * m + 2)

def readsBack (m : Nat) (e : Int) (d : Nat) (k : Int) : Bool :=
  let (low, high) := bounds m e
  let above := compareScaled low (e - 2) d k
  let below := compareScaled high (e - 2) d k
  if m % 2 = 0 then above != .gt && below != .lt else above == .lt && below == .gt

def onGrid (m : Nat) (e k : Int) : Option Decimal :=
  let num := m * Nat.pow 2 e.toNat * Nat.pow 10 (-k).toNat
  let den := Nat.pow 10 k.toNat * Nat.pow 2 (-e).toNat
  let q := num / den
  let r := num % den
  match readsBack m e q k, readsBack m e (q + 1) k with
  | true, true =>
    if 2 * r < den then some ⟨q, k⟩
    else if den < 2 * r then some ⟨q + 1, k⟩
    else some ⟨q + q % 2, k⟩
  | true, false => some ⟨q, k⟩
  | false, true => some ⟨q + 1, k⟩
  | false, false => none

/-- A power of ten above `m * 2 ^ e`, and at most 10 ^ 2 times as large. -/
def scaleAbove (m : Nat) (e : Int) : Int := ((m.log2 : Int) + e + 1) * 30103 / 100000 + 1

/-- The coarsest of the grids that has a number reading back; one of 20 has. -/
def shortest (m : Nat) (e : Int) : Decimal :=
  ((List.range 20).findSome? fun i : Nat => onGrid m e (scaleAbove m e - i)).getD ⟨m, 0⟩

structure Layout where
  leastPlain : Int
  greatestPlain : Int
  plusSign : Bool

def Layout.exponent (layout : Layout) (power : Int) : String :=
  "e" ++ (if 0 ≤ power ∧ layout.plusSign then "+" else "") ++ power.repr

def Layout.text (layout : Layout) (d : Decimal) : String :=
  let digits := Nat.toDigits 10 d.digits
  let power := digits.length - 1 + d.exponent
  if layout.leastPlain ≤ power ∧ power ≤ layout.greatestPlain then
    if 0 ≤ d.exponent then
      String.ofList (digits ++ List.replicate d.exponent.toNat '0') ++ ".0"
    else if 0 ≤ power then
      let whole := power.toNat + 1
      String.ofList (digits.take whole) ++ "." ++ String.ofList (digits.drop whole)
    else "0." ++ String.ofList (List.replicate (-power - 1).toNat '0' ++ digits)
  else
    let fraction := if digits.length ≤ 1 then "" else "." ++ String.ofList (digits.drop 1)
    String.ofList (digits.take 1) ++ fraction ++ layout.exponent power

def Layout.textOf (layout : Layout) : Binary64 → String
  | .finite s m e =>
    (if s then "-" else "") ++ if m = 0 then "0.0" else layout.text (shortest m e)
  | .infinite s => if s then "-inf" else "inf"
  | .undefined => "NaN"

end Decimal

end Recolor
