import Recolor.Toml

namespace Recolor.Toml.Table

inductive Origin where
  | opened
  | passed
  | dotted
deriving DecidableEq, Repr

inductive Entry where
  | value (value : Toml)
  | table (origin : Origin) (entries : List (String × Entry))
  | items (earlier : List (List (String × Entry))) (last : List (String × Entry))
deriving Repr, Inhabited

abbrev Entries : Type := List (String × Entry)

def lookup (key : String) (entries : Entries) : Option Entry := entries.lookup key

def set (key : String) (entry : Entry) : Entries → Entries
  | [] => [(key, entry)]
  | (k, e) :: rest => if k = key then (k, entry) :: rest else (k, e) :: set key entry rest

abbrev Change : Type := Origin → Entries → Option Entries

def alongHeader (change : Change) : List String → Change
  | [], origin, entries => change origin entries
  | key :: keys, _, entries =>
    match lookup key entries with
    | none => do
      let inner ← alongHeader change keys .passed []
      return set key (.table .passed inner) entries
    | some (.value _) => none
    | some (.items earlier last) => do
      let last ← alongHeader change keys .opened last
      return set key (.items earlier last) entries
    | some (.table origin inner) => do
      let inner ← alongHeader change keys origin inner
      return set key (.table origin inner) entries

def alongDots (change : Change) : List String → Change
  | [], origin, entries => change origin entries
  | key :: keys, _, entries =>
    match lookup key entries with
    | none => do
      let inner ← alongDots change keys .dotted []
      return set key (.table .dotted inner) entries
    | some (.value _) => none
    | some (.items earlier last) => do
      let last ← alongDots change keys .opened last
      return set key (.items earlier last) entries
    | some (.table .opened _) => none
    | some (.table origin inner) => do
      let inner ← alongDots change keys origin inner
      return set key (.table origin inner) entries

def insert (key : String) (value : Toml) (isDotted : Bool) : Change := fun origin entries =>
  if isDotted = decide (origin = .dotted) then
    match lookup key entries with
    | none => some (set key (.value value) entries)
    | some _ => none
  else none

def assign (path : List String) (value : Toml) : Change := fun origin entries =>
  match path.getLast? with
  | none => none
  | some key =>
    let front := path.dropLast
    alongDots (insert key value (!front.isEmpty)) front origin entries

def openTable (key : String) : Change := fun _ entries =>
  match lookup key entries with
  | none => some (set key (.table .opened []) entries)
  | some (.table .passed inner) => some (set key (.table .opened inner) entries)
  | some _ => none

def openItem (key : String) : Change := fun _ entries =>
  match lookup key entries with
  | none => some (set key (.items [] []) entries)
  | some (.items earlier last) => some (set key (.items (earlier ++ [last]) []) entries)
  | some _ => none

mutual

def Entry.toml : Entry → Toml
  | .value value => value
  | .table _ entries => .table (members entries)
  | .items earlier last => .array (tables earlier ++ [.table (members last)])

def members : List (String × Entry) → List (String × Toml)
  | [] => []
  | (key, entry) :: rest => (key, entry.toml) :: members rest

def tables : List (List (String × Entry)) → List Toml
  | [] => []
  | entries :: rest => .table (members entries) :: tables rest

end

structure Document where
  entries : Entries
  current : List String

namespace Document

def empty : Document := ⟨[], []⟩

def under (d : Document) (path : List String) (change : String → Change) : Option Document :=
  match path.getLast? with
  | none => none
  | some key =>
    (alongHeader (change key) path.dropLast .opened d.entries).map fun entries => ⟨entries, path⟩

def openTable (d : Document) (path : List String) : Option Document :=
  d.under path Table.openTable

def openItem (d : Document) (path : List String) : Option Document :=
  d.under path Table.openItem

def assign (d : Document) (path : List String) (value : Toml) : Option Document :=
  (alongHeader (Table.assign path value) d.current .opened d.entries).map fun entries =>
    ⟨entries, d.current⟩

def members (d : Document) : Members := Table.members d.entries

end Document

def ofAssignments (assignments : List (List String × Toml)) : Option Members :=
  (assignments.foldlM (fun entries (path, value) => assign path value .opened entries) []).map
    members

end Recolor.Toml.Table
