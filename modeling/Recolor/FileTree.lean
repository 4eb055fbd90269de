import Recolor.Path

namespace Recolor

inductive Node where
  | directory
  | file (bytes : ByteArray)
deriving BEq

abbrev Place : Type := List String

inductive PlaceError where
  | missing
  | notDirectory
  | occupied
  | tooLong
deriving DecidableEq, Repr

structure FileTree where
  nodes : List (Place × Node)

namespace FileTree

def node? (t : FileTree) (place : Place) : Option Node :=
  if place.isEmpty then some .directory else t.nodes.lookup place

def isDirectoryAt (t : FileTree) (place : Place) : Bool :=
  match t.node? place with
  | some .directory => true
  | _ => false

def file? (t : FileTree) (place : Place) : Option ByteArray :=
  match t.node? place with
  | some (.file bytes) => some bytes
  | _ => none

def put (t : FileTree) (place : Place) (node : Node) : FileTree :=
  ⟨(place, node) :: t.nodes.filter fun entry => entry.1 != place⟩

def step (t : FileTree) (here : Place) (piece : String) : Except PlaceError Place :=
  if t.isDirectoryAt here then
    if Path.namesNothing piece then .ok here
    else if piece = ".." then .ok here.dropLast
    else if Path.pieceLimit < piece.utf8ByteSize then .error .tooLong
    else if (t.node? (here ++ [piece])).isSome then .ok (here ++ [piece])
    else .error .missing
  else .error .notDirectory

def walk (t : FileTree) : Place → List String → Except PlaceError Place
  | here, [] => .ok here
  | here, piece :: pieces => do
    let there ← t.step here piece
    t.walk there pieces

def start (here : Place) (p : Path) : Place := if p.rooted then [] else here

def resolve (t : FileTree) (here : Place) (p : Path) : Except PlaceError Place :=
  if p.isEmpty then .error .missing
  else if p.isTooLong then .error .tooLong
  else t.walk (start here p) p.pieces

def contains (t : FileTree) (here : Place) (p : Path) : Bool := (t.resolve here p).toBool

def isDirectory (t : FileTree) (here : Place) (p : Path) : Bool :=
  match t.resolve here p with
  | .ok place => t.isDirectoryAt place
  | .error _ => false

def read? (t : FileTree) (here : Place) (p : Path) : Option ByteArray :=
  match t.resolve here p with
  | .ok place => t.file? place
  | .error _ => none

def newPlace (t : FileTree) (here : Place) (p : Path) : Except PlaceError Place :=
  match p.pieces.getLast? with
  | none => .error (if p.rooted then .occupied else .missing)
  | some name => do
    if p.isTooLong then .error .tooLong
    let directory ← t.walk (start here p) p.pieces.dropLast
    if !t.isDirectoryAt directory then .error .notDirectory
    else if Path.namesNothing name || name == ".." then .error .occupied
    else if Path.pieceLimit < name.utf8ByteSize then .error .tooLong
    else return directory ++ [name]

def write? (t : FileTree) (here : Place) (p : Path) (bytes : ByteArray) : Option FileTree :=
  match t.newPlace here p with
  | .ok place => if t.isDirectoryAt place then none else some (t.put place (.file bytes))
  | .error _ => none

def dropEmptyEnd (p : Path) : Path :=
  ⟨p.rooted, (p.pieces.reverse.dropWhile (· == "")).reverse⟩

def makeDirectory (t : FileTree) (here : Place) (p : Path) : Except PlaceError FileTree := do
  if p.isTooLong then .error .tooLong
  let place ← t.newPlace here (dropEmptyEnd p)
  if (t.node? place).isSome then .error .occupied else return t.put place .directory

/-- What was made on the way stays even if the last step fails. -/
def makeDirectories (here : Place) : List Path → FileTree → FileTree × Bool
  | [], t => (t, false)
  | p :: parents, t =>
    if p.isEmpty then (t, true)
    else
      match t.makeDirectory here p with
      | .ok made => (made, true)
      | .error .missing =>
        match makeDirectories here parents t with
        | (t, false) => (t, false)
        | (t, true) =>
          match t.makeDirectory here p with
          | .ok made => (made, true)
          | .error _ => (t, t.isDirectory here p)
      | .error _ => (t, t.isDirectory here p)

def makeParents (t : FileTree) (here : Place) (p : Path) : FileTree × Bool :=
  match p.parent? with
  | none => (t, true)
  | some parent =>
    if parent.isEmpty || t.contains here parent then (t, true)
    else makeDirectories here parent.ancestors t

def store (t : FileTree) (here : Place) (p : Path) (bytes : ByteArray) : FileTree × Bool :=
  match t.makeParents here p with
  | (t, false) => (t, false)
  | (t, true) =>
    match t.write? here p bytes with
    | some written => (written, true)
    | none => (t, false)

/-- The tree afterwards, and whether the file was written. -/
abbrev Writer : Type := FileTree → Place → Path → ByteArray → FileTree × Bool

end FileTree

end Recolor
