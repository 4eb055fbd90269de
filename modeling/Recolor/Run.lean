import Recolor.CommandLine.Help
import Recolor.CommandLine.Reader
import Recolor.Devices
import Recolor.Item.Command
import Recolor.Mosaic.Paint
import Recolor.Workspace

namespace Recolor

inductive RunError where
  | settings (cause : SettingsError)
  | ignoredColor (cause : Color.HexError)
  | unreadablePicture (path : Path)
  | undecodablePicture (path : Path)
  | mosaic (cause : Mosaic.WeaveError)
  | unreadableTemplate (path : Path)
  | descriptor (cause : DescriptorError)
  | command (cause : DescriptorFault)
  | canvas (cause : CanvasError)
  | painting (cause : Mosaic.PaintError)
  | unwritten
  | unsaved (path : Path)
  | unprinted
deriving DecidableEq, Repr

namespace RunError

/-- What a shell reports of a run that breaks off. -/
def abortCode : UInt8 := 134

def exitCode : RunError → UInt8
  | .settings _ => 2
  | .ignoredColor _ => 2
  | .unreadableTemplate _ => 2
  | .descriptor _ => 2
  | .painting .tooLarge => abortCode
  | .unprinted => abortCode
  | _ => 1

def quoted (p : Path) : String := "'" ++ p.text ++ "'"

def message : RunError → String
  | .settings cause => cause.message
  | .ignoredColor cause => (Mosaic.WeaveError.ignoredColor cause).message
  | .unreadablePicture path => "Cannot read image " ++ quoted path
  | .undecodablePicture path => "Cannot decode image " ++ quoted path
  | .mosaic cause => cause.message
  | .unreadableTemplate path => "Cannot read template " ++ quoted path
  | .descriptor cause => cause.message
  | .command cause => cause.message
  | .canvas cause => cause.message
  | .painting cause => cause.message
  | .unwritten => "IO error"
  | .unsaved path => "Failed to save " ++ quoted path
  | .unprinted => "failed printing to stdout"

def line (e : RunError) : String :=
  if e.exitCode = abortCode then e.message else "Error: " ++ e.message

end RunError

namespace Invocation

def previewPath (i : Invocation) : Path := i.source.output.getD i.source.input.preview

end Invocation

inductive Product where
  | text (text : String)
  | picture (picture : Picture)

structure Outcome where
  exitCode : UInt8
  output : String
  messages : List String
  tree : FileTree

namespace Workspace

def settingsOf (w : Workspace) (i : Invocation) : Except RunError Settings := do
  let found ← (w.settings i.config).mapError .settings
  let (merged, valid) := found.merge i.override
  valid.mapError .settings
  return merged

def pictureOf (w : Workspace) (codec : Picture.Codec) (p : Path) : Except RunError Picture :=
  match w.read? p with
  | none => .error (.unreadablePicture p)
  | some bytes =>
    match codec.size? p bytes with
    | none => .error (.unreadablePicture p)
    | some (width, height) => do
      (Mosaic.checkSize width height).mapError .mosaic
      match codec.decode? p bytes with
      | none => .error (.undecodablePicture p)
      | some picture => .ok picture

def prepare (w : Workspace) (codec : Picture.Codec) (i : Invocation) :
    Except RunError (Settings × Mosaic) := do
  let settings ← w.settingsOf i
  let options ← settings.options.mapError .ignoredColor
  let picture ← w.pictureOf codec i.source.input
  let mosaic ← (Mosaic.ofPicture picture options).mapError .mosaic
  return (settings, mosaic)

def template (w : Workspace) (s : Settings) : Except RunError Template :=
  match s.item.template with
  | none => .ok (.preset s.item.preset)
  | some path =>
    match w.readText? path with
    | none => .error (.unreadableTemplate path)
    | some text => .ok (.custom text)

def descriptor (w : Workspace) (s : Settings) (m : Mosaic) : Except RunError Json := do
  let template ← w.template s
  (Descriptor.render m template s.group? s.item.inventoryIcon).mapError .descriptor

def jsonText (compact : Bool) (j : Json) : String := if compact then j.compact else j.indented

def product (w : Workspace) (s : Settings) (m : Mosaic) : Task → Except RunError Product
  | .descriptor _ compact => do
    let descriptor ← w.descriptor s m
    return .text (jsonText compact descriptor)
  | .command _ => do
    let descriptor ← w.descriptor s m
    let command ← (Descriptor.command descriptor).mapError .command
    return .text command
  | .single .. => do
    let directives ← (s.canvas.compose m).mapError .canvas
    return .text directives
  | .icon compact => return .text (jsonText compact m.iconJson)
  | .preview scale => do
    let picture ← m.toPicture.mapError .painting
    return .picture (picture.magnify scale)

def warnings (i : Invocation) (m : Mosaic) : List String :=
  match i.task with
  | .descriptor .. | .command _ =>
    if m.isEmpty then
      ["Warning: " ++ RunError.quoted i.source.input ++
        " has no visible pixels; the item will have no drawables"]
    else []
  | _ => []

end Workspace

namespace Outcome

def failed (tree : FileTree) (warnings : List String) (e : RunError) : Outcome :=
  ⟨e.exitCode, "", warnings ++ [e.line], tree⟩

def ofStore (store : FileTree × Bool) (warnings : List String) (e : RunError) : Outcome :=
  if store.2 then ⟨0, "", warnings, store.1⟩ else failed store.1 warnings e

def ofPrint (tree : FileTree) (warnings : List String) (text : String) (e : RunError) :
    Option String → Outcome
  | none => ⟨0, text, warnings, tree⟩
  | some part => { failed tree warnings e with output := part }

end Outcome

namespace Workspace

def endLine (text : String) : String :=
  if text.toList.getLast? = some '\n' then text else text ++ "\n"

def deliverText (w : Workspace) (devices : Devices) (i : Invocation) (m : Mosaic)
    (text : String) : Outcome :=
  match i.source.output with
  | none =>
    .ofPrint w.tree (warnings i m) (endLine text) .unwritten (devices.print (endLine text))
  | some path =>
    .ofStore (devices.write w.tree w.here path text.toUTF8) (warnings i m) .unwritten

def storePicture (w : Workspace) (devices : Devices) (path : Path) (picture : Picture) :
    FileTree × Bool :=
  match devices.codec.encode? path picture with
  | some bytes => devices.write w.tree w.here path bytes
  | none => ((w.tree.makeParents w.here path).1, false)

def savedLine (path : Path) (m : Mosaic) (picture : Picture) : String :=
  "Saved: " ++ path.text ++ " (" ++ m.drawables.length.repr ++ " drawables, " ++
    picture.columns.repr ++ "x" ++ picture.rows.repr ++ ")\n"

def deliverPicture (w : Workspace) (devices : Devices) (i : Invocation) (m : Mosaic)
    (picture : Picture) : Outcome :=
  let saved := w.storePicture devices i.previewPath picture
  let line := savedLine i.previewPath m picture
  if saved.2 then .ofPrint saved.1 (warnings i m) line .unprinted (devices.print line)
  else .failed saved.1 (warnings i m) (.unsaved i.previewPath)

def deliver (w : Workspace) (devices : Devices) (i : Invocation) (m : Mosaic) :
    Product → Outcome
  | .text text => w.deliverText devices i m text
  | .picture picture => w.deliverPicture devices i m picture

def runWith (w : Workspace) (devices : Devices) (i : Invocation) : Outcome :=
  match w.prepare devices.codec i with
  | .error e => .failed w.tree [] e
  | .ok (settings, mosaic) =>
    match w.product settings mosaic i.task with
    | .error e => .failed w.tree (warnings i mosaic) e
    | .ok product => w.deliver devices i mosaic product

def run (w : Workspace) (i : Invocation) : Outcome := w.runWith Devices.plain i

def versionLine : String := "drawables 0.1.0\n"

def refuse (w : Workspace) : UsageError → Outcome
  | .help => ⟨0, CommandLine.help, [], w.tree⟩
  | .version => ⟨0, versionLine, [], w.tree⟩
  | e => ⟨2, "", [e.line], w.tree⟩

def runWordsWith (w : Workspace) (devices : Devices) (words : List String) : Outcome :=
  match CommandLine.read words with
  | .error e => w.refuse e
  | .ok i => w.runWith devices i

def runWords (w : Workspace) (words : List String) : Outcome := w.runWordsWith Devices.plain words

end Workspace

end Recolor
