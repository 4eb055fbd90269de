import Recolor.Settings.File

namespace Recolor

structure Workspace where
  tree : FileTree
  here : Place
  settingsHome : Option Path
  home : Option Path

namespace Workspace

def herePath (w : Workspace) : Path := ⟨true, w.here⟩

def read? (w : Workspace) (p : Path) : Option ByteArray := w.tree.read? w.here p

def readText? (w : Workspace) (p : Path) : Option String := (w.read? p).bind String.fromUTF8?

def personalDirectory? (w : Workspace) : Option Path :=
  match w.settingsHome with
  | some directory => some directory
  | none => w.home.map fun home => home.join (Path.ofText ".config")

def personalCandidate? (w : Workspace) : Option Path :=
  w.personalDirectory?.map fun directory =>
    (directory.join (Path.ofText "drawables")).join Settings.fileName

def personalFile? (w : Workspace) : Option Path :=
  w.personalCandidate?.filter fun file => w.tree.contains w.here file

def settingsFile? (w : Workspace) : Option Path :=
  match Settings.nearest? w.tree w.here w.herePath with
  | some file => some file
  | none => w.personalFile?

def settings (w : Workspace) (named : Option Path) : Except SettingsError Settings :=
  match named.or w.settingsFile? with
  | some file => Settings.ofFile file (w.read? file)
  | none => .ok Settings.default

end Workspace

end Recolor
