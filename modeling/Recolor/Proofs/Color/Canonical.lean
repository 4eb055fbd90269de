import Recolor.Proofs.Color.RoundTrip

namespace Recolor.Color

def IsCodeDigit (d : Char) : Prop := '0' ≤ d ∧ d ≤ '9' ∨ 'A' ≤ d ∧ d ≤ 'F'

def IsCode (ds : List Char) : Prop := ds.length = 8 ∧ ∀ d ∈ ds, IsCodeDigit d

def isCodeDigit (d : Char) : Bool := ('0' ≤ d && d ≤ '9') || ('A' ≤ d && d ≤ 'F')

theorem isCodeDigit_iff {d : Char} : isCodeDigit d = true ↔ IsCodeDigit d := by
  simp [isCodeDigit, IsCodeDigit]

theorem isCodeDigit_of_isDigit {d : Char} (h : d.isDigit = true) : isCodeDigit d = true := by
  simp only [Char.isDigit, Bool.and_eq_true, decide_eq_true_eq] at h
  exact isCodeDigit_iff.mpr (.inl h)

theorem IsCode.exists_last {ds : List Char} (h : IsCode ds) :
    ∃ last ∈ ds.getLast?, IsCodeDigit last := by
  have some_last : ds ≠ [] := List.ne_nil_of_length_pos (h.1 ▸ Nat.zero_lt_succ 7)
  exact ⟨_, List.getLast?_eq_some_getLast some_last, h.2 _ (List.getLast_mem some_last)⟩

theorem isCodeDigit_digitOfValue {n : Nat} (h : n < 16) : IsCodeDigit (digitOfValue n) := by
  have table : ∀ k : Fin 16, '0' ≤ digitOfValue k.val ∧ digitOfValue k.val ≤ '9' ∨
      'A' ≤ digitOfValue k.val ∧ digitOfValue k.val ≤ 'F' := by decide
  exact table ⟨n, h⟩

theorem exists_digitOfValue {d : Char} (h : IsCodeDigit d) : ∃ n, n < 16 ∧ digitOfValue n = d := by
  have range {a b : Char} (ha : a ≤ d) (hb : d ≤ b) : a.toNat ≤ d.toNat ∧ d.toNat ≤ b.toNat :=
    ⟨Text.le_iff_toNat_le.mp ha, Text.le_iff_toNat_le.mp hb⟩
  rcases h with ⟨ha, hb⟩ | ⟨ha, hb⟩
  · have bounds : 48 ≤ d.toNat ∧ d.toNat ≤ 57 := range ha hb
    have back : 48 + (d.toNat - 48) = d.toNat := by omega
    refine ⟨d.toNat - 48, by omega, ?_⟩
    rw [digitOfValue, if_pos (by omega), back, Char.ofNat_toNat]
  · have bounds : 65 ≤ d.toNat ∧ d.toNat ≤ 70 := range ha hb
    have back : 55 + (d.toNat - 55) = d.toNat := by omega
    refine ⟨d.toNat - 55, by omega, ?_⟩
    rw [digitOfValue, if_neg (by omega), back, Char.ofNat_toNat]

theorem channelDigits_channel {high low : Nat} (hh : high < 16) (hl : low < 16) :
    channelDigits (channel high low) = [digitOfValue high, digitOfValue low] := by
  obtain ⟨above, below⟩ := halves_of_toNat hl (toNat_channel hh hl)
  rw [channelDigits, above, below]

theorem exists_channelDigits {a b : Char} (ha : IsCodeDigit a) (hb : IsCodeDigit b) :
    ∃ byte, channelDigits byte = [a, b] := by
  obtain ⟨high, hh, rfl⟩ := exists_digitOfValue ha
  obtain ⟨low, hl, rfl⟩ := exists_digitOfValue hb
  exact ⟨channel high low, channelDigits_channel hh hl⟩

theorem isCode_hexDigits (c : Color) : IsCode c.hexDigits := by
  refine ⟨rfl, fun d hd => ?_⟩
  obtain ⟨byte, -, hbyte⟩ := List.mem_flatMap.mp hd
  obtain ⟨n, hn, rfl⟩ := mem_channelDigits hbyte
  exact isCodeDigit_digitOfValue hn

theorem exists_hexDigits {ds : List Char} (h : IsCode ds) : ∃ c : Color, c.hexDigits = ds := by
  obtain ⟨eight, digit⟩ := h
  match ds, eight with
  | [r, r', g, g', b, b', a, a'], _ =>
    obtain ⟨red, hr⟩ := exists_channelDigits (digit r (by simp)) (digit r' (by simp))
    obtain ⟨green, hg⟩ := exists_channelDigits (digit g (by simp)) (digit g' (by simp))
    obtain ⟨blue, hb⟩ := exists_channelDigits (digit b (by simp)) (digit b' (by simp))
    obtain ⟨alpha, ha⟩ := exists_channelDigits (digit a (by simp)) (digit a' (by simp))
    refine ⟨⟨red, green, blue, alpha⟩, ?_⟩
    simp only [hexDigits, channels, List.flatMap_cons, List.flatMap_nil, hr, hg, hb, ha,
      List.cons_append, List.nil_append]

end Recolor.Color
