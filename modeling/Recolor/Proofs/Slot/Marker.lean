import Recolor.Slot

namespace Recolor

theorem pairwise_grid {A B C : Type} {r : A → A → Prop} {s : B → B → Prop} {t : C → C → Prop}
    {f : A → B → C} {xs : List A} {ys : List B} (hx : xs.Pairwise r) (hy : ys.Pairwise s)
    (across : ∀ {a a' b b'}, r a a' → t (f a b) (f a' b'))
    (along : ∀ {a b b'}, s b b' → t (f a b) (f a b')) :
    (xs.flatMap fun a => ys.map (f a)).Pairwise t := by
  rw [List.pairwise_flatMap]
  refine ⟨fun a _ => ?_, hx.imp ?_⟩
  · exact List.pairwise_map.mpr (hy.imp along)
  · intro a a' haa c hc c' hc'
    obtain ⟨b, -, rfl⟩ := List.mem_map.mp hc
    obtain ⟨b', -, rfl⟩ := List.mem_map.mp hc'
    exact across haa

namespace Slot

/-- The red byte of column `i` is `x + 1`: six bytes are left out before each new ten. -/
def Spaced (i x : Nat) : Prop :=
  x ≤ 8 ∧ x = i ∨ 15 ≤ x ∧ x ≤ 24 ∧ x = i + 6 ∨ 31 ≤ x ∧ x ≤ 40 ∧ x = i + 12 ∨
    47 ≤ x ∧ x ≤ 49 ∧ x = i + 18

theorem ofCodedDecimal?_codedDecimal (n : Nat) : ofCodedDecimal? (codedDecimal n) = some n := by
  have low : codedDecimal n % 16 = n % 10 := by unfold codedDecimal; omega
  have high : codedDecimal n / 16 = n / 10 := by unfold codedDecimal; omega
  rw [ofCodedDecimal?, low, high, if_pos (Nat.mod_lt n (by decide)), Nat.div_add_mod']

theorem codedDecimal_succ {i : Nat} (h : i < 32) :
    codedDecimal (i + 1) =
      i + 1 + (if 9 ≤ i then 6 else 0) + (if 19 ≤ i then 6 else 0) + if 29 ≤ i then 6 else 0 := by
  unfold codedDecimal
  split <;> split <;> split <;> omega

theorem at?_succ (s : Slot) : at? (s.column.val + 1) (s.row.val + 1) = some s := by
  have hc := s.column.isLt
  have hr := s.row.isLt
  rw [at?, dif_pos (by omega)]
  rfl

theorem toNat_red_marker (s : Slot) :
    s.marker.red.toNat = codedDecimal (s.column.val + 1) := by
  have hc := s.column.isLt
  exact UInt8.toNat_ofNat_of_lt' (by unfold codedDecimal UInt8.size; omega)

theorem toNat_blue_marker (s : Slot) : s.marker.blue.toNat = s.row.val + 1 := by
  have hr := s.row.isLt
  exact UInt8.toNat_ofNat_of_lt' (by unfold UInt8.size; omega)

theorem ofMarker?_marker (s : Slot) : ofMarker? s.marker = some s := by
  have plain : s.marker.green = 0 ∧ s.marker.alpha = 1 := ⟨rfl, rfl⟩
  rw [ofMarker?, if_pos plain, toNat_red_marker, toNat_blue_marker, ofCodedDecimal?_codedDecimal,
    Option.bind_some, at?_succ]

theorem marker_eq_iff {c : Color} {s : Slot} :
    s.marker = c ↔ c.red.toNat = codedDecimal (s.column.val + 1) ∧ c.green = 0 ∧
      c.blue.toNat = s.row.val + 1 ∧ c.alpha = 1 := by
  constructor
  · rintro rfl
    exact ⟨toNat_red_marker s, rfl, toNat_blue_marker s, rfl⟩
  · obtain ⟨red, green, blue, alpha⟩ := c
    rintro ⟨hred, rfl, hblue, rfl⟩
    rw [marker, ← hred, ← hblue, UInt8.ofNat_toNat, UInt8.ofNat_toNat]

theorem codedDecimal_of_ofCodedDecimal? {b n : Nat} (h : ofCodedDecimal? b = some n) :
    codedDecimal n = b := by
  unfold ofCodedDecimal? at h
  split at h
  · cases h
    unfold codedDecimal
    omega
  · cases h

theorem succ_of_at? {column row : Nat} {s : Slot} (h : at? column row = some s) :
    s.column.val + 1 = column ∧ s.row.val + 1 = row := by
  unfold at? at h
  split at h
  · next inside =>
    cases h
    exact ⟨Nat.sub_add_cancel inside.1, Nat.sub_add_cancel inside.2.2.1⟩
  · cases h

theorem marker_of_ofMarker? {c : Color} {s : Slot} (h : ofMarker? c = some s) : s.marker = c := by
  unfold ofMarker? at h
  split at h
  · next plain =>
    obtain ⟨column, hcolumn, hs⟩ := Option.bind_eq_some_iff.mp h
    obtain ⟨rfl, hrow⟩ := succ_of_at? hs
    have hred := codedDecimal_of_ofCodedDecimal? hcolumn
    exact marker_eq_iff.mpr ⟨hred.symm, plain.1, hrow.symm, plain.2⟩
  · cases h

theorem ofMarker?_eq_some_iff {c : Color} {s : Slot} : ofMarker? c = some s ↔ s.marker = c :=
  ⟨marker_of_ofMarker?, fun h => h ▸ ofMarker?_marker s⟩

theorem ofMarker?_eq_none_iff {c : Color} : ofMarker? c = none ↔ ∀ s : Slot, s.marker ≠ c := by
  simp only [Option.eq_none_iff_forall_ne_some, ne_eq, ofMarker?_eq_some_iff]

theorem eq_codedDecimal_succ_iff {b i : Nat} (h : i < 32) :
    b = codedDecimal (i + 1) ↔ ∃ x, b = x + 1 ∧ Spaced i x := by
  unfold codedDecimal Spaced
  constructor
  · rintro rfl
    refine ⟨(i + 1) / 10 * 16 + (i + 1) % 10 - 1, ?_, ?_⟩ <;> omega
  · rintro ⟨x, rfl, range⟩
    omega

theorem ofMarker?_eq_some_iff_spaced {c : Color} {s : Slot} :
    ofMarker? c = some s ↔ c.green = 0 ∧ c.alpha = 1 ∧ c.blue.toNat = s.row.val + 1 ∧
      ∃ x, c.red.toNat = x + 1 ∧ Spaced s.column.val x := by
  rw [ofMarker?_eq_some_iff, marker_eq_iff, eq_codedDecimal_succ_iff s.column.isLt]
  constructor
  · rintro ⟨red, green, blue, alpha⟩
    exact ⟨green, alpha, blue, red⟩
  · rintro ⟨green, alpha, blue, red⟩
    exact ⟨red, green, blue, alpha⟩

theorem marker_injective : marker.Injective := by
  intro s t h
  have same := ofMarker?_marker s
  rw [h, ofMarker?_marker] at same
  exact (Option.some.inj same).symm

theorem mem_all (s : Slot) : s ∈ all := by
  simp only [all, List.mem_flatMap, List.mem_map]
  exact ⟨s.column, List.mem_finRange _, s.row, List.mem_finRange _, rfl⟩

theorem all_pairwise : all.Pairwise before :=
  pairwise_grid (List.pairwise_lt_finRange 32) (List.pairwise_lt_finRange 8) .inl
    fun h => .inr ⟨rfl, h⟩

theorem length_all : all.length = 256 := by simp [all, List.length_flatMap, List.map_const']

theorem ne_of_before {s t : Slot} (h : s.before t) : s ≠ t := by
  rintro rfl
  rcases h with h | ⟨-, h⟩ <;> exact Fin.lt_irrefl _ h

end Slot

end Recolor
