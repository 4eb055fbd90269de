import Recolor.Png.Note

namespace Recolor.Png

def frameName : String := "fcTL"

def framePixelsName : String := "fdAT"

structure Preface where
  header : Option Header
  told : List String
  frames : Nat
deriving DecidableEq, Repr

namespace Preface

def empty : Preface := ⟨none, [], 0⟩

def isFrame (h : Header) (number : Nat) (body : ByteArray) : Bool :=
  26 ≤ body.size && word? body 0 == some number && word? body 4 == some h.width.toNat &&
    word? body 8 == some h.height.toNat && word? body 12 == some 0 && word? body 16 == some 0 &&
    byteAt body 24 ≤ 2 && byteAt body 25 ≤ 1

def addNote (p : Preface) (h : Header) (c : Chunk) : Option Preface :=
  if c.name ∈ p.told ∨ !Note.isWellFormed h c then none
  else if c.name ∈ Note.single then some { p with told := c.name :: p.told }
  else some p

def addFrame (p : Preface) (h : Header) (c : Chunk) : Option Preface :=
  if isFrame h p.frames c.body then some { p with frames := p.frames + 1 } else none

def add (p : Preface) (c : Chunk) : Option Preface :=
  match p.header with
  | none =>
    if c.name ≠ headerName then none
    else if c.body.isEmpty then some p
    else (Header.ofBody? c.body).map fun h => { p with header := some h }
  | some h =>
    if c.name = endName ∨ c.name = framePixelsName then none
    else if c.body.isEmpty then some p
    else if c.name = headerName then none
    else if c.name = frameName then p.addFrame h c
    else p.addNote h c

def endsAt (p : Preface) (name : String) (size : Nat) : Bool :=
  p.header.isSome &&
    (name == pixelsName || (name == framePixelsName && 0 < p.frames && 4 ≤ size))

end Preface

end Recolor.Png
