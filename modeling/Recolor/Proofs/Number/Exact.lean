import Mathlib
import Recolor.Number.Blocks

namespace Recolor.Binary64

variable {x y : Binary64} {p q : ℚ} {s t : Bool} {m n num den a b : ℕ} {e : ℤ}

def sign (s : Bool) : ℚ := if s then -1 else 1

def value? : Binary64 → Option ℚ
  | .finite s m e => some (sign s * m * 2 ^ e)
  | _ => none

def Representable (q : ℚ) : Prop :=
  ∃ (i : ℤ) (b : ℕ), i.natAbs < 2 ^ 53 ∧ b ≤ 1074 ∧ q * 2 ^ b = i

theorem sign_bne (s t : Bool) : sign (s != t) = sign s * sign t := by
  cases s <;> cases t <;> simp [sign]

theorem sign_mul_self (s : Bool) : sign s * sign s = 1 := by
  cases s <;> simp [sign]

theorem cast_signed (s : Bool) (n : ℕ) : ((signed s n : ℤ) : ℚ) = sign s * n := by
  cases s <;> simp [signed, sign]

theorem abs_sign (s : Bool) : |sign s| = 1 := by
  cases s <;> simp [sign]

theorem sign_mul_intCast (i : ℤ) : sign (decide (i < 0)) * i = i.natAbs := by
  by_cases negative : i < 0
  · rw [decide_eq_true negative, Nat.cast_natAbs, abs_of_neg negative]
    simp [sign]
  · rw [decide_eq_false negative, Nat.cast_natAbs, abs_of_nonneg (not_lt.mp negative)]
    simp [sign]

theorem sign_mul_natAbs (i : ℤ) : sign (decide (i < 0)) * i.natAbs = i := by
  rw [← sign_mul_intCast, ← mul_assoc, sign_mul_self, one_mul]

theorem representable_intCast {i : ℤ} (h : i.natAbs < 2 ^ 53) : Representable i :=
  ⟨i, 0, h, Nat.zero_le _, by simp⟩

theorem Representable.sign_mul (h : Representable q) (s : Bool) : Representable (sign s * q) := by
  obtain ⟨i, b, small, within, same⟩ := h
  cases s with
  | false => exact ⟨i, b, small, within, by simpa [sign] using same⟩
  | true => exact ⟨-i, b, by rwa [Int.natAbs_neg], within, by simp [sign, same]⟩

theorem exists_finite (h : x.value? = some q) :
    ∃ s m e, x = .finite s m e ∧ q = sign s * m * 2 ^ e := by
  cases x with
  | finite s m e => exact ⟨s, m, e, rfl, (Option.some.inj h).symm⟩
  | _ => cases h

theorem isFinite_of_value? (h : x.value? = some q) : x.isFinite = true := by
  obtain ⟨s, m, e, rfl, -⟩ := exists_finite h
  rfl

theorem cast_pow_toNat (h : 0 ≤ e) : ((Nat.pow 2 e.toNat : ℕ) : ℚ) = 2 ^ e := by
  have power : ((Nat.pow 2 e.toNat : ℕ) : ℚ) = 2 ^ e.toNat := Nat.cast_pow 2 _
  rw [power, ← zpow_natCast, Int.toNat_of_nonneg h]

theorem two_zpow_of_nonpos (h : e ≤ 0) : (2 : ℚ) ^ e = ((2 ^ (-e).toNat : ℕ) : ℚ)⁻¹ := by
  have power : ((2 ^ (-e).toNat : ℕ) : ℚ) = 2 ^ (-e) := cast_pow_toNat (by omega)
  rw [power, zpow_neg, inv_inv]

theorem scaled_spec (positive : 0 < den) (num : ℕ) (e : ℤ) :
    0 < (scaled num den e).2 ∧
      ((scaled num den e).1 : ℚ) / (scaled num den e).2 = num / den / 2 ^ e := by
  unfold scaled
  split
  · next up =>
    refine ⟨Nat.mul_pos positive (Nat.two_pow_pos _), ?_⟩
    rw [Nat.cast_mul, cast_pow_toNat up, div_div]
  · next down =>
    refine ⟨positive, ?_⟩
    rw [Nat.cast_mul, cast_pow_toNat (by omega), zpow_neg]
    field_simp

theorem scaled_of_nonpos (h : e ≤ 0) (num den : ℕ) :
    scaled num den e = (num * 2 ^ (-e).toNat, den) := by
  unfold scaled
  split
  · next up =>
    obtain rfl : e = 0 := by omega
    simp
  · rfl

theorem roundedQuotient_mul (positive : 0 < den) (a : ℕ) : roundedQuotient (a * den) den = a := by
  simp only [roundedQuotient, Nat.mul_mod_left, Nat.mul_div_cancel a positive, Nat.mul_zero,
    if_pos positive]

theorem value?_pack (h : e ≤ 0) (s : Bool) (m : ℕ) :
    (pack s m e).value? = some (sign s * m * 2 ^ e) := by
  unfold pack
  split
  next m' e' packed =>
  have same : e' ≤ 1 ∧ (m' : ℚ) * 2 ^ e' = m * 2 ^ e := by
    split at packed
    · next full =>
      cases packed
      refine ⟨by omega, ?_⟩
      have half : ((mantissaLimit / 2 : ℕ) : ℚ) * 2 = mantissaLimit := by norm_num [mantissaLimit]
      rw [zpow_add_one₀ two_ne_zero, mul_comm _ (2 : ℚ), ← mul_assoc, half, full]
    · cases packed
      exact ⟨by omega, rfl⟩
  rw [if_neg (by rw [greatestExponent]; omega), value?, mul_assoc, mul_assoc, same.2]

theorem exponentOf_le (someNum : 0 < num) (someDen : 0 < den) (same : num * 2 ^ b = a * den)
    (small : a < 2 ^ 53) (within : b ≤ 1074) : exponentOf num den ≤ -b := by
  have bits : 2 ^ (num.log2 + b) < 2 ^ (53 + (den.log2 + 1)) := by
    calc 2 ^ (num.log2 + b) = 2 ^ num.log2 * 2 ^ b := pow_add ..
      _ ≤ num * 2 ^ b := Nat.mul_le_mul_right _ (Nat.log2_self_le someNum.ne')
      _ = a * den := same
      _ < 2 ^ 53 * 2 ^ (den.log2 + 1) := Nat.mul_lt_mul'' small Nat.lt_log2_self
      _ = 2 ^ (53 + (den.log2 + 1)) := (pow_add ..).symm
  have order : num.log2 + b < 53 + (den.log2 + 1) := (Nat.pow_lt_pow_iff_right (by decide)).mp bits
  unfold exponentOf
  rw [leastExponent]
  generalize least : max ((num.log2 : ℤ) - den.log2 - 53) (-1074) = e
  have low : e ≤ -b := by omega
  dsimp only
  rw [scaled_of_nonpos (by omega)]
  split
  · exact low
  · next large =>
    -- At the exponent of the last bit the quotient is `a`, which has 53 bits.
    have differ : e ≠ -b := by
      rintro rfl
      apply large
      rw [neg_neg, Int.toNat_natCast, same, Nat.mul_div_cancel _ someDen]
      exact small
    omega

theorem mul_pow_toNat (same : num * 2 ^ b = a * den) (low : e ≤ -b) :
    num * 2 ^ (-e).toNat = a * 2 ^ ((-e).toNat - b) * den := by
  have bits : 2 ^ (-e).toNat = 2 ^ b * 2 ^ ((-e).toNat - b) := by
    rw [← pow_add, Nat.add_sub_cancel' (by omega)]
  rw [bits, ← mul_assoc, same, mul_right_comm]

theorem value?_ofQuotient (someDen : 0 < den) (same : num * 2 ^ b = a * den) (small : a < 2 ^ 53)
    (within : b ≤ 1074) (s : Bool) :
    (ofQuotient s num den).value? = some (sign s * (num / den)) := by
  unfold ofQuotient
  split
  · next none => simp [none, zero, value?]
  · next someNum =>
    have low := exponentOf_le (Nat.pos_of_ne_zero someNum) someDen same small within
    generalize exponentOf num den = e at low
    have nonpos : e ≤ 0 := by omega
    have whole := mul_pow_toNat same low
    dsimp only
    rw [scaled_of_nonpos nonpos]
    dsimp only
    rw [whole, roundedQuotient_mul someDen, value?_pack nonpos, mul_assoc,
      two_zpow_of_nonpos nonpos]
    have positive : (den : ℚ) ≠ 0 := by positivity
    have cast : (num : ℚ) * (2 ^ (-e).toNat : ℕ) = (a * 2 ^ ((-e).toNat - b) : ℕ) * den := by
      exact_mod_cast whole
    congr 2
    rw [eq_div_iff positive, mul_right_comm, ← cast, mul_assoc, mul_inv_cancel₀ (by positivity),
      mul_one]

theorem Representable.value?_ofQuotient (h : Representable (num / den)) (someDen : 0 < den)
    (s : Bool) : (ofQuotient s num den).value? = some (sign s * (num / den)) := by
  obtain ⟨i, b, small, within, same⟩ := h
  have positive : (den : ℚ) ≠ 0 := by positivity
  have size : (i.natAbs : ℤ) = i := Int.natAbs_of_nonneg (by
    have nonneg : (0 : ℚ) ≤ i := by
      rw [← same]
      positivity
    exact_mod_cast nonneg)
  refine Binary64.value?_ofQuotient someDen ?_ small within s
  have cast : (num : ℚ) * 2 ^ b = (i.natAbs : ℤ) * den := by
    rw [size, ← same]
    field_simp
  exact_mod_cast cast

theorem value?_ofQuotient_scaled (h : Representable (sign s * (num / den / 2 ^ e)))
    (someDen : 0 < den) : (ofQuotient s (scaled num den e).1 (scaled num den e).2).value? =
      some (sign s * (num / den / 2 ^ e)) := by
  obtain ⟨positive, same⟩ := scaled_spec someDen num e
  have size := h.sign_mul s
  rw [← mul_assoc, sign_mul_self, one_mul, ← same] at size
  rw [← same]
  exact size.value?_ofQuotient positive s

theorem value?_ofQuotient_one (small : n < 2 ^ 53) (s : Bool) :
    (ofQuotient s n 1).value? = some (sign s * n) := by
  rw [value?_ofQuotient Nat.one_pos (b := 0) (by rw [pow_zero]) small (Nat.zero_le _),
    Nat.cast_one, div_one]

theorem value?_ofInt {i : ℤ} (small : i.natAbs < 2 ^ 53) : (ofInt i).value? = some (i : ℚ) := by
  rw [ofInt, value?_ofQuotient_one small, sign_mul_natAbs]

theorem value?_ofNat (small : n < 2 ^ 53) : (ofNat n).value? = some (n : ℚ) := by
  rw [ofNat, value?_ofQuotient_one small]
  simp [sign]

theorem aligned_value {low : ℤ} (h : low ≤ e) (s : Bool) (m : ℕ) :
    ((signed s (m * Nat.pow 2 (e - low).toNat) : ℤ) : ℚ) * 2 ^ low = sign s * m * 2 ^ e := by
  rw [cast_signed, Nat.cast_mul, cast_pow_toNat (by omega), mul_assoc, mul_assoc,
    ← zpow_add₀ two_ne_zero, Int.sub_add_cancel, mul_assoc]

theorem value?_add (hx : x.value? = some p) (hy : y.value? = some q)
    (h : Representable (p + q)) : (x.add y).value? = some (p + q) := by
  obtain ⟨s, m, e, rfl, rfl⟩ := exists_finite hx
  obtain ⟨t, n, f, rfl, rfl⟩ := exists_finite hy
  rw [← aligned_value (min_le_left e f) s m, ← aligned_value (min_le_right e f) t n, ← add_mul,
    ← Int.cast_add] at h ⊢
  rw [add]
  generalize min e f = low at h ⊢
  dsimp only
  generalize signed s (m * Nat.pow 2 (e - low).toNat) +
    signed t (n * Nat.pow 2 (f - low).toNat) = total at h ⊢
  split
  · next none => simp [none, zero, value?]
  · have sum : (total : ℚ) * 2 ^ low =
        sign (decide (total < 0)) * ((total.natAbs : ℕ) / (1 : ℕ) / 2 ^ (-low)) := by
      rw [Nat.cast_one, div_one, zpow_neg, div_inv_eq_mul, ← mul_assoc, sign_mul_natAbs]
    rw [sum] at h ⊢
    exact value?_ofQuotient_scaled h Nat.one_pos

theorem value?_mul (hx : x.value? = some p) (hy : y.value? = some q)
    (h : Representable (p * q)) : (x.mul y).value? = some (p * q) := by
  obtain ⟨s, m, e, rfl, rfl⟩ := exists_finite hx
  obtain ⟨t, n, f, rfl, rfl⟩ := exists_finite hy
  have product : sign s * m * 2 ^ e * (sign t * n * 2 ^ f) =
      sign (s != t) * ((m * n : ℕ) / (1 : ℕ) / 2 ^ (-(e + f))) := by
    rw [sign_bne, Nat.cast_mul, Nat.cast_one, div_one, zpow_neg, div_inv_eq_mul,
      zpow_add₀ two_ne_zero]
    ring
  rw [product] at h ⊢
  exact value?_ofQuotient_scaled h Nat.one_pos

theorem value?_div (hx : x.value? = some p) (hy : y.value? = some q) (nonzero : q ≠ 0)
    (h : Representable (p / q)) : (x.div y).value? = some (p / q) := by
  obtain ⟨s, m, e, rfl, rfl⟩ := exists_finite hx
  obtain ⟨t, n, f, rfl, rfl⟩ := exists_finite hy
  have divisor : n ≠ 0 := by
    rintro rfl
    simp at nonzero
  have quotient : sign s * m * 2 ^ e / (sign t * n * 2 ^ f) =
      sign (s != t) * (m / n / 2 ^ (f - e)) := by
    have unit : (sign t)⁻¹ = sign t := inv_eq_of_mul_eq_one_left (sign_mul_self t)
    rw [sign_bne, zpow_sub₀ two_ne_zero]
    simp only [div_eq_mul_inv, mul_inv, inv_inv, unit]
    ring
  rw [quotient] at h ⊢
  rw [div, if_neg divisor]
  exact value?_ofQuotient_scaled h (Nat.pos_of_ne_zero divisor)

def nearest (q : ℚ) : ℤ := signed (decide (q < 0)) ⌊|q| + 1 / 2⌋₊

theorem natAbs_nearest (q : ℚ) : (nearest q).natAbs = ⌊|q| + 1 / 2⌋₊ := by
  unfold nearest signed
  split <;> omega

theorem nearest_intCast (i : ℤ) : nearest i = i := by
  have size : |(i : ℚ)| = i.natAbs := by rw [Nat.cast_natAbs, Int.cast_abs]
  have floor : ⌊(i.natAbs : ℚ) + 1 / 2⌋₊ = i.natAbs :=
    (Nat.floor_eq_iff (by positivity)).mpr ⟨by linarith, by linarith⟩
  rw [nearest, size, floor, signed]
  simp only [Int.cast_lt_zero, decide_eq_true_eq]
  split <;> omega

theorem nearest_sign_mul (h : 0 ≤ q) (s : Bool) :
    (nearest (sign s * q) : ℚ) = sign s * ⌊q + 1 / 2⌋₊ := by
  rw [nearest, cast_signed, abs_mul, abs_sign, one_mul, abs_of_nonneg h]
  rcases h.eq_or_lt with rfl | positive
  · have floor : ⌊(0 + 1 / 2 : ℚ)⌋₊ = 0 := by norm_num
    rw [floor]
    simp
  · congr 2
    cases s with
    | false => simpa [sign] using h
    | true => simpa [sign] using positive

theorem floor_div_add_half (m : ℕ) (h : 0 < n) :
    ⌊(m / n : ℚ) + 1 / 2⌋₊ = (2 * m + n) / (2 * n) := by
  rw [← Rat.natFloor_natCast_div_natCast]
  congr 1
  push_cast
  field_simp

theorem value?_round (hx : x.value? = some q) (small : (nearest q).natAbs < 2 ^ 53) :
    x.round.value? = some (nearest q : ℚ) := by
  obtain ⟨s, m, e, rfl, rfl⟩ := exists_finite hx
  rw [round]
  split
  · next up =>
    have whole : sign s * m * 2 ^ e = ((signed s (m * Nat.pow 2 e.toNat) : ℤ) : ℚ) := by
      rw [cast_signed, Nat.cast_mul, cast_pow_toNat up, mul_assoc]
    rw [hx, whole, nearest_intCast]
  · next down =>
    have unit : 0 < 2 ^ (-e).toNat := Nat.two_pow_pos _
    have nonneg : (0 : ℚ) ≤ m / (2 ^ (-e).toNat : ℕ) := by positivity
    have quotient : sign s * m * 2 ^ e = sign s * ((m : ℚ) / (2 ^ (-e).toNat : ℕ)) := by
      rw [two_zpow_of_nonpos (by omega), mul_assoc, div_eq_mul_inv]
    rw [quotient, natAbs_nearest, abs_mul, abs_sign, one_mul, abs_of_nonneg nonneg,
      floor_div_add_half m unit] at small
    rw [quotient, nearest_sign_mul nonneg, floor_div_add_half m unit]
    exact value?_ofQuotient_one small s

end Recolor.Binary64

namespace Recolor.Blocks

open Binary64

variable {x : Binary64} {q : ℚ} {i : ℤ}

def thousandths (q : ℚ) : ℚ := nearest (q * 1000) / 1000

theorem value?_roundThousandths (hx : x.value? = some q) (product : Representable (q * 1000))
    (small : (nearest (q * 1000)).natAbs < 2 ^ 53) (result : Representable (thousandths q)) :
    (roundThousandths x).value? = some (thousandths q) := by
  have thousand : (ofNat 1000).value? = some 1000 := value?_ofNat (n := 1000) (by decide)
  have rounded := value?_round (value?_mul hx thousand product) small
  exact value?_div rounded thousand (by decide) result

theorem eighth_mul (i : ℤ) : (i / 8 : ℚ) * 1000 = (125 * i : ℤ) := by
  push_cast
  ring

theorem thousandths_eighth (i : ℤ) : thousandths (i / 8) = i / 8 := by
  rw [thousandths, eighth_mul, nearest_intCast, ← eighth_mul, mul_div_cancel_right₀ _ (by decide)]

theorem representable_eighth (small : i.natAbs < 2 ^ 53) : Representable (i / 8) :=
  ⟨i, 3, small, by decide, by norm_num⟩

theorem value?_eighth (small : i.natAbs < 2 ^ 53) :
    ((ofInt i).div (ofNat pixelsPerBlock)).value? = some (i / 8 : ℚ) := by
  have eight : (ofNat pixelsPerBlock).value? = some 8 := value?_ofNat (n := 8) (by decide)
  exact value?_div (value?_ofInt small) eight (by decide) (representable_eighth small)

theorem value?_ofPixels (small : i.natAbs < 2 ^ 46) :
    (ofPixels (ofInt i)).value? = some (i / 8 : ℚ) := by
  have large : (125 * i).natAbs < 2 ^ 53 := by
    rw [Int.natAbs_mul, show (125 : ℤ).natAbs = 125 from rfl]
    omega
  have eighth := representable_eighth (i := i) (by omega)
  rw [← thousandths_eighth] at eighth ⊢
  exact value?_roundThousandths (value?_eighth (by omega))
    (eighth_mul i ▸ representable_intCast large) (by rwa [eighth_mul, nearest_intCast]) eighth

end Recolor.Blocks
