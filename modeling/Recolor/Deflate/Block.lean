import Recolor.Deflate.Input

namespace Recolor.Deflate

def stored (done : ByteArray) : Reader ByteArray := do
  alignToByte
  let size ← number 16
  let complement ← number 16
  let s ← get
  let start := s.position / 8
  if size + complement ≠ 65535 ∨ s.bytes.size < start + size then failure
  set { s with position := s.position + 8 * size }
  return done ++ s.bytes.extract start (start + size)

structure Span where
  least : Nat
  bits : Nat
deriving DecidableEq, Repr

def spans (least : Nat) : List Nat → List Span
  | [] => []
  | bits :: rest => ⟨least, bits⟩ :: spans (least + Nat.pow 2 bits) rest

def lengthSpans : Array Span :=
  ((spans 3 [0, 0, 0, 0, 0, 0, 0, 0, 1, 1, 1, 1, 2, 2, 2, 2, 3, 3, 3, 3, 4, 4, 4, 4, 5, 5, 5, 5])
    ++ [Span.mk 258 0]).toArray

def distanceSpans : Array Span :=
  (spans 1 [0, 0, 0, 0, 1, 1, 2, 2, 3, 3, 4, 4, 5, 5, 6, 6, 7, 7, 8, 8, 9, 9, 10, 10, 11, 11, 12,
    12, 13, 13]).toArray

def inSpan (table : Array Span) (index : Nat) : Reader Nat :=
  match table[index]? with
  | none => failure
  | some span => do
    let more ← number span.bits
    return span.least + more

def copy (distance : Nat) : Nat → ByteArray → ByteArray
  | 0, done => done
  | n + 1, done => copy distance n (done.push (done[done.size - distance]?.getD 0))

structure Codes where
  literals : PrefixCode
  distances : PrefixCode

def endOfBlock : Nat := 256

/-- Each round takes at least one bit, so `fuel` need not exceed the number of bits. -/
def coded (codes : Codes) : (fuel : Nat) → ByteArray → Reader ByteArray
  | 0, _ => failure
  | fuel + 1, done => do
    let value ← symbol codes.literals
    if value < endOfBlock then coded codes fuel (done.push value.toUInt8)
    else if value = endOfBlock then return done
    else
      let length ← inSpan lengthSpans (value - endOfBlock - 1)
      let distance ← inSpan distanceSpans (← symbol codes.distances)
      if done.size < distance then failure
      coded codes fuel (copy distance length done)

def fixedCodes? : Option Codes := do
  let literals ← PrefixCode.ofLengths?
    (List.replicate 144 8 ++ List.replicate 112 9 ++ List.replicate 24 7 ++ List.replicate 8 8)
  let distances ← PrefixCode.ofLengths? (List.replicate 30 5)
  return ⟨literals, distances⟩

def toldOrder : List Nat := [16, 17, 18, 0, 8, 7, 9, 6, 10, 5, 11, 4, 12, 3, 13, 2, 14, 1, 15]

def toldLengths : List Nat → Reader (List (Nat × Nat))
  | [] => return []
  | value :: values => do
    let length ← number 3
    let rest ← toldLengths values
    return (value, length) :: rest

def wordLengths (code : PrefixCode) (count : Nat) : (fuel : Nat) → List Nat → Reader (List Nat)
  | 0, done => if done.length = count then return done.reverse else failure
  | fuel + 1, done => do
    if done.length = count then return done.reverse
    let value ← symbol code
    if value < 16 then wordLengths code count fuel (value :: done)
    else if value = 16 then
      match done with
      | [] => failure
      | last :: _ =>
        let more ← number 2
        wordLengths code count fuel (List.replicate (3 + more) last ++ done)
    else if value = 17 then
      let more ← number 3
      wordLengths code count fuel (List.replicate (3 + more) 0 ++ done)
    else
      let more ← number 7
      wordLengths code count fuel (List.replicate (11 + more) 0 ++ done)

def literalCode? (lengths : List Nat) : Option PrefixCode :=
  if lengths[endOfBlock]? = some 0 then none else PrefixCode.completeOfLengths? lengths

def distanceCode? (lengths : List Nat) : Option PrefixCode :=
  let used := lengths.filter (· != 0)
  if used = [] ∨ used = [1] then PrefixCode.ofLengths? lengths
  else PrefixCode.completeOfLengths? lengths

def ownCodes : Reader Codes := do
  let literals := (← number 5) + 257
  let distances := (← number 5) + 1
  let told := (← number 4) + 4
  if 286 < literals ∨ 30 < distances then failure
  let lengths ← toldLengths (toldOrder.take told)
  let code ← PrefixCode.completeOfLengths?
    ((List.range 19).map fun value => (lengths.lookup value).getD 0)
  let lengths ← wordLengths code (literals + distances) (literals + distances) []
  return ⟨← literalCode? (lengths.take literals), ← distanceCode? (lengths.drop literals)⟩

def codes : Nat → Reader Codes
  | 1 => fixedCodes?
  | 2 => ownCodes
  | _ => failure

def blocks (bits : Nat) : (fuel : Nat) → ByteArray → Reader ByteArray
  | 0, _ => failure
  | fuel + 1, done => do
    let isLast ← bit
    let kind ← number 2
    let done ← if kind = 0 then stored done else coded (← codes kind) bits done
    if isLast then return done else blocks bits fuel done

end Recolor.Deflate
