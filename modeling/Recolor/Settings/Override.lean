import Recolor.Settings

namespace Recolor

structure Override where
  texture : Option String
  handX : Option Int32
  handY : Option Int32
  ignoreColor : Option String
  replaceBlank : Option Bool
  replaceWhite : Option Bool
  preset : Option Preset
  template : Option Path
  group : Option String
  inventoryIcon : Option Bool
  baseScale : Option UInt32
  fade : Option Bool
  clearBackground : Option Bool
deriving DecidableEq, Repr

namespace Override

def none : Override :=
  ⟨.none, .none, .none, .none, .none, .none, .none, .none, .none, .none, .none, .none, .none⟩

def tiling (o : Override) (t : Settings.Tiling) : Settings.Tiling where
  texture := o.texture.getD t.texture
  handX := o.handX.getD t.handX
  handY := o.handY.getD t.handY
  ignoreColor := o.ignoreColor.getD t.ignoreColor
  replaceBlank := o.replaceBlank.getD t.replaceBlank
  replaceWhite := o.replaceWhite.getD t.replaceWhite

def template? (o : Override) (before : Option Path) : Option Path :=
  match o.template, o.preset with
  | some template, _ => some template
  | .none, some _ => .none
  | .none, .none => before

def item (o : Override) (i : Settings.Item) : Settings.Item where
  preset := o.preset.getD i.preset
  template := o.template? i.template
  group := o.group.getD i.group
  inventoryIcon := o.inventoryIcon.getD i.inventoryIcon

def canvas (o : Override) (c : Canvas) : Canvas where
  baseScale := o.baseScale.getD c.baseScale
  fade := o.fade.getD c.fade
  clearBackground := o.clearBackground.getD c.clearBackground

def apply (o : Override) (s : Settings) : Settings :=
  ⟨o.tiling s.tiling, o.item s.item, o.canvas s.canvas⟩

end Override

/-- The settings stay even if they are not valid. -/
def Settings.merge (s : Settings) (o : Override) : Settings × Except SettingsError Unit :=
  (o.apply s, (o.apply s).check)

end Recolor
