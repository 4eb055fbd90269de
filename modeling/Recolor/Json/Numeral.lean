import Recolor.Json

namespace Recolor.Json

structure Numeral where
  negative : Bool
  whole : List Char
  fraction : List Char
  exponent : Option (Bool × List Char)
deriving DecidableEq, Repr

namespace Numeral

def significandLimit : Nat := Nat.pow 2 64

def exponentLimit : Nat := Nat.pow 2 31

def absorb (significand : Nat) : List Char → Nat × Nat
  | [] => (significand, 0)
  | c :: cs =>
    let grown := 10 * significand + (c.toNat - 48)
    if grown < significandLimit then
      let (last, count) := absorb grown cs
      (last, count + 1)
    else (significand, 0)

def greatestPower : Nat := 308

def powerOfTen (n : Nat) : Binary64 := Binary64.ofNat (Nat.pow 10 n)

def scale (x : Binary64) (e : Int) : Option Binary64 :=
  if e.natAbs ≤ greatestPower then
    if 0 ≤ e then
      let y := x.mul (powerOfTen e.toNat)
      if y.isInfinite then none else some y
    else some (x.div (powerOfTen (-e).toNat))
  else if x.isZero then some x
  else if 0 ≤ e then none
  else scale (x.div (powerOfTen greatestPower)) (e + greatestPower)
termination_by (-e).toNat
decreasing_by
  simp only [greatestPower] at *
  omega

def withSign (negative : Bool) (x : Binary64) : Binary64 := if negative then x.neg else x

def real? (n : Numeral) : Option Binary64 :=
  let (leading, taken) := absorb 0 n.whole
  let (significand, places) := absorb leading n.fraction
  let shift : Int := (n.whole.length : Int) - taken - places
  let x := Binary64.ofNat significand
  match n.exponent with
  | none => (scale x shift).map (withSign n.negative)
  | some (down, digits) =>
    let power := Nat.ofDigitChars 10 digits 0
    if exponentLimit ≤ power then
      if significand ≠ 0 ∧ down = false then none else some (Binary64.zero n.negative)
    else
      (scale x (if down then shift - power else shift + power)).map (withSign n.negative)

def integer? (n : Numeral) : Option Int :=
  if n.fraction.isEmpty && n.exponent.isNone then
    let size := Nat.ofDigitChars 10 n.whole 0
    if n.negative then
      if 0 < size ∧ size ≤ significandLimit / 2 then some (-(size : Int)) else none
    else if size < significandLimit then some size else none
  else none

def value? (n : Numeral) : Option Json :=
  match n.integer? with
  | some i => some (.integer i)
  | none => n.real?.map .real

end Numeral

end Recolor.Json
