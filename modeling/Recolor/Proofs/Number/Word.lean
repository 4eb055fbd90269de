namespace Recolor.Word

variable {a b c : UInt32} {i : Int32} {n : Int}

def ofInt? (n : Int) : Option UInt32 :=
  if 0 ≤ n ∧ n < 4294967296 then some (UInt32.ofNat n.toNat) else none

def signed? (n : Int) : Option Int32 :=
  if -2147483648 ≤ n ∧ n < 2147483648 then some (Int32.ofInt n) else none

def add? (a b : UInt32) : Option UInt32 := ofInt? (a.toNat + b.toNat)

def sub? (a b : UInt32) : Option UInt32 := ofInt? (a.toNat - b.toNat)

def mul? (a b : UInt32) : Option UInt32 := ofInt? (a.toNat * b.toNat)

/-- One less, but zero stays zero. -/
def pred? (a : UInt32) : Option UInt32 := if a = 0 then some 0 else sub? a 1

def neg? (i : Int32) : Option Int32 := signed? (-i.toInt)

example : sub? 8 9 = none ∧ add? 4294967295 1 = none ∧ neg? Int32.minValue = none := by decide

theorem ofInt?_eq_some_iff : ofInt? n = some a ↔ (a.toNat : Int) = n := by
  unfold ofInt?
  constructor
  · intro h
    obtain ⟨⟨least, most⟩, same⟩ := Option.ite_none_right_eq_some.mp h
    cases same
    have small : n.toNat < 4294967296 := by omega
    rw [UInt32.toNat_ofNat_of_lt' small, Int.toNat_of_nonneg least]
  · rintro rfl
    have small := a.toNat_lt
    rw [if_pos (by omega), Int.toNat_natCast, UInt32.ofNat_toNat]

theorem signed?_eq_some_iff : signed? n = some i ↔ i.toInt = n := by
  unfold signed?
  constructor
  · intro h
    obtain ⟨⟨least, most⟩, same⟩ := Option.ite_none_right_eq_some.mp h
    cases same
    exact Int32.toInt_ofInt_of_le least most
  · rintro rfl
    rw [if_pos ⟨i.le_toInt, i.toInt_lt⟩, Int32.ofInt_toInt]

theorem exists_ofInt? (least : 0 ≤ n) (most : n < 4294967296) :
    ∃ a, ofInt? n = some a ∧ (a.toNat : Int) = n := by
  simp only [ofInt?_eq_some_iff, and_self]
  have small : n.toNat < 4294967296 := by omega
  exact ⟨UInt32.ofNat n.toNat, by rw [UInt32.toNat_ofNat_of_lt' small, Int.toNat_of_nonneg least]⟩

theorem exists_add? (h : a.toNat + b.toNat < 4294967296) :
    ∃ c, add? a b = some c ∧ c.toNat = a.toNat + b.toNat := by
  obtain ⟨c, sum, hc⟩ := exists_ofInt? (n := a.toNat + b.toNat) (by omega) (by omega)
  exact ⟨c, sum, by omega⟩

theorem exists_sub? (h : b.toNat ≤ a.toNat) :
    ∃ c, sub? a b = some c ∧ c.toNat = a.toNat - b.toNat := by
  have small := a.toNat_lt
  obtain ⟨c, difference, hc⟩ := exists_ofInt? (n := a.toNat - b.toNat) (by omega) (by omega)
  exact ⟨c, difference, by omega⟩

theorem exists_sub?_sub? (h : b.toNat < a.toNat) :
    ∃ last c, sub? a 1 = some last ∧ sub? last b = some c ∧ c.toNat = a.toNat - 1 - b.toNat := by
  have one : (1 : UInt32).toNat = 1 := rfl
  obtain ⟨last, isLast, hlast⟩ := exists_sub? (a := a) (b := 1) (by omega)
  obtain ⟨c, isDifference, hc⟩ := exists_sub? (a := last) (b := b) (by omega)
  exact ⟨last, c, isLast, isDifference, by omega⟩

theorem exists_mul? (h : a.toNat * b.toNat < 4294967296) :
    ∃ c, mul? a b = some c ∧ c.toNat = a.toNat * b.toNat := by
  obtain ⟨c, product, hc⟩ := exists_ofInt? (n := a.toNat * b.toNat) (by omega) (by omega)
  exact ⟨c, product, by omega⟩

theorem toNat_max (a b : UInt32) : (max a b).toNat = max a.toNat b.toNat := by
  change (if a ≤ b then b else a).toNat = _
  simp only [Nat.max_def, UInt32.le_iff_toNat_le]
  split <;> rfl

theorem pos_of_ne_zero (h : a ≠ 0) : 0 < a.toNat :=
  Nat.pos_of_ne_zero fun zero => h (UInt32.toNat_inj.mp zero)

theorem exists_pred? (a : UInt32) : ∃ b, pred? a = some b ∧ b.toNat = a.toNat - 1 := by
  unfold pred?
  split
  · next zero => exact ⟨0, rfl, by rw [zero]; rfl⟩
  · next positive => exact exists_sub? (pos_of_ne_zero positive)

theorem neg?_eq_some_iff {j : Int32} : neg? i = some j ↔ j.toInt = -i.toInt :=
  signed?_eq_some_iff

theorem neg?_of_nonneg (h : 0 ≤ i.toInt) : neg? i = some (-i) := by
  have most := i.toInt_lt
  rw [neg?_eq_some_iff, Int32.toInt_neg, Int.bmod_eq_of_le (by omega) (by omega)]

end Recolor.Word
