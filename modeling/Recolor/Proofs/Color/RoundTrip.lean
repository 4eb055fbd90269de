import Recolor.Color.Hex

namespace Recolor.Text

theorem le_iff_toNat_le {a b : Char} : a ≤ b ↔ a.toNat ≤ b.toNat := Iff.rfl

theorem toNat_of_isHexDigit {c : Char} (h : isHexDigit c = true) :
    48 ≤ c.toNat ∧ c.toNat ≤ 57 ∨ 97 ≤ c.toNat ∧ c.toNat ≤ 102 ∨ 65 ≤ c.toNat ∧ c.toNat ≤ 70 := by
  have range {a b : Char} (ha : a ≤ c) (hb : c ≤ b) : a.toNat ≤ c.toNat ∧ c.toNat ≤ b.toNat :=
    ⟨le_iff_toNat_le.mp ha, le_iff_toNat_le.mp hb⟩
  unfold isHexDigit hexValue? isDigit at h
  split at h
  · next hd =>
    simp only [Bool.and_eq_true, decide_eq_true_eq] at hd
    exact .inl (range hd.1 hd.2)
  · split at h
    · next hl => exact .inr (.inl (range hl.1 hl.2))
    · split at h
      · next hu => exact .inr (.inr (range hu.1 hu.2))
      · simp at h

theorem isBlank_of_isHexDigit {c : Char} (h : isHexDigit c = true) : isBlank c = false := by
  have hc := toNat_of_isHexDigit h
  simp only [isBlank, blankRanges, List.any_cons, List.any_nil, Bool.or_false, Bool.or_eq_false_iff,
    Bool.and_eq_false_iff, decide_eq_false_iff_not]
  omega

theorem ne_of_isHexDigit {c : Char} (h : isHexDigit c = true) :
    c ≠ '#' ∧ c ≠ ';' ∧ c ≠ '=' := by
  have hc := toNat_of_isHexDigit h
  refine ⟨?_, ?_, ?_⟩ <;> rintro rfl <;> revert hc <;> decide

end Recolor.Text

namespace Recolor.Color

theorem hexValue?_digitOfValue {n : Nat} (h : n < 16) :
    Text.hexValue? (digitOfValue n) = some n := by
  have table : ∀ k : Fin 16, Text.hexValue? (digitOfValue k.val) = some k.val := by decide
  exact table ⟨n, h⟩

theorem mem_channelDigits {b : UInt8} {d : Char} (h : d ∈ channelDigits b) :
    ∃ n, n < 16 ∧ d = digitOfValue n := by
  have hb : b.toNat < 256 := b.toNat_lt
  simp only [channelDigits, List.mem_cons, List.not_mem_nil, or_false] at h
  rcases h with rfl | rfl
  · exact ⟨b.toNat / 16, by omega, rfl⟩
  · exact ⟨b.toNat % 16, by omega, rfl⟩

theorem isHexDigit_of_mem_hexDigits {c : Color} {d : Char} (h : d ∈ c.hexDigits) :
    Text.isHexDigit d = true := by
  obtain ⟨b, -, hb⟩ := List.mem_flatMap.mp h
  obtain ⟨n, hn, rfl⟩ := mem_channelDigits hb
  simp [Text.isHexDigit, hexValue?_digitOfValue hn]

theorem filterMap_channelDigits (b : UInt8) :
    (channelDigits b).filterMap Text.hexValue? = [b.toNat / 16, b.toNat % 16] := by
  have hb : b.toNat < 256 := b.toNat_lt
  simp only [channelDigits, List.filterMap_cons, List.filterMap_nil,
    hexValue?_digitOfValue (show b.toNat / 16 < 16 by omega),
    hexValue?_digitOfValue (show b.toNat % 16 < 16 by omega)]

theorem channel_halves (b : UInt8) : channel (b.toNat / 16) (b.toNat % 16) = b := by
  rw [channel, Nat.div_add_mod, UInt8.ofNat_toNat]

theorem toNat_channel {high low : Nat} (hh : high < 16) (hl : low < 16) :
    (channel high low).toNat = 16 * high + low :=
  UInt8.toNat_ofNat_of_lt' (by unfold UInt8.size; omega)

theorem halves_of_toNat {byte : UInt8} {high low : Nat} (hl : low < 16)
    (value : byte.toNat = 16 * high + low) :
    byte.toNat / 16 = high ∧ byte.toNat % 16 = low := by
  constructor <;> omega

theorem ofDigits_hexDigits (c : Color) : ofDigits c.hexDigits = .ok c := by
  have digits : c.hexDigits.find? (fun d => !Text.isHexDigit d) = none := by
    rw [List.find?_eq_none]
    intro d hd
    simp [isHexDigit_of_mem_hexDigits hd]
  have values : ofValues? (c.hexDigits.filterMap Text.hexValue?) = some c := by
    simp only [hexDigits, channels, List.flatMap_cons, List.flatMap_nil, List.append_nil,
      List.filterMap_append, filterMap_channelDigits, List.cons_append, List.nil_append, ofValues?,
      channel_halves]
  have some_digit : c.hexDigits.isEmpty = false := rfl
  rw [ofDigits, some_digit, digits, values]
  rfl

theorem dropNumberSign_eq_self {cs : List Char} (h : '#' ∉ cs) : dropNumberSign cs = cs := by
  unfold dropNumberSign
  split
  · simp at h
  · rfl

theorem ofChars_hexDigits (c : Color) : ofChars c.hexDigits = .ok c := by
  have plain : Text.trim c.hexDigits = c.hexDigits :=
    Text.trim_eq_self fun d hd => Text.isBlank_of_isHexDigit (isHexDigit_of_mem_hexDigits hd)
  have unsigned : '#' ∉ c.hexDigits := fun hd =>
    (Text.ne_of_isHexDigit (isHexDigit_of_mem_hexDigits hd)).1 rfl
  rw [ofChars, plain, dropNumberSign_eq_self unsigned, ofDigits_hexDigits]

end Recolor.Color
