import Recolor.Run

namespace Recolor.Program

def placeText (place : Place) : String := "/" ++ "/".intercalate place

/-- A file that cannot be read is taken for a directory. -/
def nodeAt? (place : Place) : IO (Option Node) := do
  let file := (← IO.currentDir) / placeText place
  if ← file.isDir then return some .directory
  else if ← file.pathExists then
    try return some (.file (← IO.FS.readBinFile file))
    catch _ => return some .directory
  else return none

def lookAt (w : Workspace) (p : Path) : IO Workspace := do
  let mut tree := w.tree
  let mut place := FileTree.start w.here p
  for piece in p.pieces do
    if piece = ".." then place := place.dropLast
    else if !Path.namesNothing piece then
      place := place ++ [piece]
      match ← nodeAt? place with
      | some node => tree := tree.put place node
      | none => pure ()
  return { w with tree := tree }

def lookAtAll (w : Workspace) (ps : List Path) : IO Workspace := ps.foldlM lookAt w

def emptyWorkspace : IO Workspace := do
  let here := Path.ofText (← IO.currentDir).toString
  let settingsHome := (← IO.getEnv "XDG_CONFIG_HOME").map Path.ofText
  let home := (← IO.getEnv "HOME").map Path.ofText
  let place := here.pieces.filter fun piece => !Path.namesNothing piece
  lookAt ⟨⟨[]⟩, place, settingsHome, home⟩ here

def settingsPaths (w : Workspace) (i : Invocation) : List Path :=
  match i.config with
  | some file => [file]
  | none => Settings.candidates w.herePath ++ w.personalCandidate?.toList

def workspaceFor (i : Invocation) : IO Workspace := do
  let w ← emptyWorkspace
  let w ← lookAtAll w (settingsPaths w i ++ [i.source.input, i.previewPath])
  match w.settingsOf i with
  | .ok settings => lookAtAll w settings.item.template.toList
  | .error _ => return w

def isNew (before : FileTree) : Place × Node → Bool
  | (place, node) => before.node? place != some node

def writeBack (before after : FileTree) : IO Unit := do
  for (place, node) in (after.nodes.filter (isNew before)).reverse do
    match node with
    | .directory => IO.FS.createDirAll (placeText place)
    | .file bytes => IO.FS.writeBinFile (placeText place) bytes

def report (o : Outcome) : IO UInt32 := do
  for message in o.messages do
    IO.eprintln message
  IO.print o.output
  return o.exitCode.toUInt32

def writeError (i : Invocation) : RunError :=
  match i.task with
  | .preview _ => .unsaved i.previewPath
  | _ => .unwritten

def printError (i : Invocation) : RunError :=
  match i.task with
  | .preview _ => .unprinted
  | _ => .unwritten

def perform (i : Invocation) : IO UInt32 := do
  let w ← workspaceFor i
  let outcome := w.run i
  let written ←
    try
      writeBack w.tree outcome.tree
      pure true
    catch _ => pure false
  if written then
    try report outcome
    catch _ => report (.failed outcome.tree [] (printError i))
  else report (.failed w.tree outcome.messages (writeError i))

end Recolor.Program

def main (words : List String) : IO UInt32 := do
  match Recolor.CommandLine.read words with
  | .ok i => Recolor.Program.perform i
  | .error e => Recolor.Program.report ((← Recolor.Program.emptyWorkspace).refuse e)
