namespace Recolor

structure Path where
  rooted : Bool
  pieces : List String
deriving DecidableEq, Repr

namespace Path

def split (cs : List Char) : List String :=
  if cs.isEmpty then [] else (cs.splitOn '/').map String.ofList

def ofText (s : String) : Path :=
  match s.toList with
  | '/' :: cs => ⟨true, split cs⟩
  | cs => ⟨false, split cs⟩

def text (p : Path) : String := (if p.rooted then "/" else "") ++ "/".intercalate p.pieces

def isEmpty (p : Path) : Bool := !p.rooted && p.pieces.isEmpty

def pieceLimit : Nat := 255

def textLimit : Nat := 4095

def isTooLong (p : Path) : Bool := textLimit < p.text.utf8ByteSize

def namesNothing (piece : String) : Bool := piece == "" || piece == "."

def dropTrailing (pieces : List String) : List String :=
  (pieces.reverse.dropWhile namesNothing).reverse

def trimmed : Path → List String
  | ⟨false, "." :: pieces⟩ => "." :: dropTrailing pieces
  | ⟨_, pieces⟩ => dropTrailing pieces

def fileName? (p : Path) : Option String :=
  p.trimmed.getLast?.filter fun piece => piece != "." && piece != ".."

def parent? (p : Path) : Option Path :=
  if p.trimmed.isEmpty then none else some ⟨p.rooted, trimmed ⟨p.rooted, p.trimmed.dropLast⟩⟩

theorem length_dropTrailing_le (pieces : List String) :
    (dropTrailing pieces).length ≤ pieces.length := by
  have h := (List.dropWhile_suffix namesNothing (l := pieces.reverse)).length_le
  simpa [dropTrailing] using h

theorem length_trimmed_le (p : Path) : p.trimmed.length ≤ p.pieces.length := by
  unfold trimmed
  split
  · simpa using length_dropTrailing_le _
  · exact length_dropTrailing_le _

theorem length_parent_lt {p q : Path} (h : p.parent? = some q) :
    q.pieces.length < p.pieces.length := by
  unfold parent? at h
  split at h
  · simp at h
  · next hne =>
    cases h
    have hpos : 0 < p.trimmed.length := by
      cases ht : p.trimmed with
      | nil => simp [ht] at hne
      | cons a l => simp
    have h₁ := length_trimmed_le ⟨p.rooted, p.trimmed.dropLast⟩
    have h₂ := length_trimmed_le p
    simp only [List.length_dropLast] at h₁
    show (trimmed ⟨p.rooted, p.trimmed.dropLast⟩).length < p.pieces.length
    omega

def ancestors (p : Path) : List Path :=
  match _h : p.parent? with
  | none => [p]
  | some q => p :: ancestors q
termination_by p.pieces.length
decreasing_by exact length_parent_lt _h

def join (base path : Path) : Path :=
  if path.rooted then path
  else if base.pieces.isEmpty then ⟨base.rooted, path.pieces⟩
  else
    let front := if base.pieces.getLast? = some "" then base.pieces.dropLast else base.pieces
    ⟨base.rooted, front ++ if path.pieces.isEmpty then [""] else path.pieces⟩

def splitName (name : String) : String × Option String :=
  let cs := name.toList.reverse
  match cs.span (· != '.') with
  | (_, []) => (name, none)
  | (_, [_]) => (name, none)
  | (after, _ :: before) => (String.ofList before.reverse, some (String.ofList after.reverse))

def stem? (p : Path) : Option String := p.fileName?.map fun name => (splitName name).1

def extension? (p : Path) : Option String := p.fileName?.bind fun name => (splitName name).2

/-- There is no stem without a name, or where it is no text. -/
def previewIn (directory : Path) (stem : Option String) : Path :=
  let name := ofText (stem.getD "output" ++ "_preview.png")
  if directory.isEmpty then name else directory.join name

def preview (p : Path) : Path := previewIn (p.parent?.getD ⟨false, []⟩) p.stem?

end Path

end Recolor
