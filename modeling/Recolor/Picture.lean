import Recolor.Color

namespace Recolor

structure Picture where
  width : UInt32
  height : UInt32
  pixels : Vector Color (width.toNat * height.toNat)

namespace Picture

def columns (p : Picture) : Nat := p.width.toNat

def rows (p : Picture) : Nat := p.height.toNat

def area (p : Picture) : Nat := p.columns * p.rows

def pixel? (p : Picture) (x y : Nat) : Option Color :=
  if x < p.columns ∧ y < p.rows then p.pixels[y * p.columns + x]? else none

def fromBottom? (p : Picture) (x y : Nat) : Option Color :=
  if y < p.rows then p.pixel? x (p.rows - 1 - y) else none

def build (width height : UInt32) (color : Nat → Nat → Color) : Picture :=
  ⟨width, height, Vector.ofFn fun k => color (k.val % width.toNat) (k.val / width.toNat)⟩

def filled (width height : UInt32) (color : Color) : Picture :=
  ⟨width, height, Vector.replicate _ color⟩

/-- The most bytes that a picture in memory can take up; a pixel takes up four. -/
def byteLimit : Nat := 9223372036854775807

def filled? (width height : UInt32) (color : Color) : Option Picture :=
  if 4 * width.toNat * height.toNat ≤ byteLimit then some (filled width height color) else none

def put : Picture → Nat → Nat → Color → Picture
  | ⟨width, height, pixels⟩, x, y, color =>
    if x < width.toNat ∧ y < height.toNat then
      ⟨width, height, pixels.setIfInBounds (y * width.toNat + x) color⟩
    else ⟨width, height, pixels⟩

def putFromBottom (p : Picture) (x y : Nat) (color : Color) : Picture :=
  if y < p.rows then p.put x (p.rows - 1 - y) color else p

def magnify (p : Picture) (factor : UInt8) : Picture :=
  if factor ≤ 1 then p
  else
    build (p.width * factor.toUInt32) (p.height * factor.toUInt32) fun x y =>
      (p.pixel? (x / factor.toNat) (y / factor.toNat)).getD Color.clear

theorem index_lt {w h x y : Nat} (hx : x < w) (hy : y < h) : y * w + x < w * h := by
  calc y * w + x < y * w + w := by omega
    _ = (y + 1) * w := by rw [Nat.succ_mul]
    _ ≤ h * w := Nat.mul_le_mul_right w hy
    _ = w * h := Nat.mul_comm h w

theorem index_inj {w x y x' y' : Nat} (hx : x < w) (hx' : x' < w)
    (h : y * w + x = y' * w + x') : x = x' ∧ y = y' := by
  have hmod := congrArg (· % w) h
  simp only [Nat.add_mod, Nat.mul_mod_left, Nat.zero_add, Nat.mod_eq_of_lt hx,
    Nat.mod_eq_of_lt hx'] at hmod
  subst hmod
  have hw : 0 < w := by omega
  exact ⟨rfl, Nat.eq_of_mul_eq_mul_right hw (by omega)⟩

theorem pixel?_isSome (p : Picture) (x y : Nat) :
    (p.pixel? x y).isSome = true ↔ x < p.columns ∧ y < p.rows := by
  unfold pixel?
  by_cases h : x < p.columns ∧ y < p.rows
  · have hi : y * p.columns + x < p.width.toNat * p.height.toNat := index_lt h.1 h.2
    simp [h, hi]
  · simp [h]

theorem pixel?_filled (width height : UInt32) (color : Color) (x y : Nat) :
    (filled width height color).pixel? x y =
      if x < width.toNat ∧ y < height.toNat then some color else none := by
  unfold pixel? filled columns rows
  by_cases h : x < width.toNat ∧ y < height.toNat
  · have hi : y * width.toNat + x < width.toNat * height.toNat := index_lt h.1 h.2
    simp [h, hi]
  · simp [h]

theorem filled?_of_le {width height : UInt32} {color : Color}
    (room : 4 * width.toNat * height.toNat ≤ byteLimit) :
    filled? width height color = some (filled width height color) := if_pos room

theorem filled?_of_lt {width height : UInt32} {color : Color}
    (large : byteLimit < 4 * width.toNat * height.toNat) :
    filled? width height color = none := if_neg (Nat.not_le.mpr large)

@[simp] theorem width_put (p : Picture) (x y : Nat) (color : Color) :
    (p.put x y color).width = p.width := by
  unfold put
  split
  split <;> rfl

@[simp] theorem height_put (p : Picture) (x y : Nat) (color : Color) :
    (p.put x y color).height = p.height := by
  unfold put
  split
  split <;> rfl

end Picture

end Recolor
