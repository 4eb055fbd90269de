import Recolor.Proofs.Color.RoundTrip
import Recolor.Proofs.Text.Trimming

namespace Recolor.Text

variable {d : Char} {n : Nat}

def Denotes (d : Char) (n : Nat) : Prop :=
  n < 10 ∧ d.toNat = '0'.toNat + n ∨
    10 ≤ n ∧ n < 16 ∧ (d.toNat + 10 = 'a'.toNat + n ∨ d.toNat + 10 = 'A'.toNat + n)

def IsHex (d : Char) : Prop := ∃ n, Denotes d n

theorem Denotes.lt (h : Denotes d n) : n < 16 := by
  rcases h with ⟨small, -⟩ | ⟨-, small, -⟩ <;> omega

theorem hexValue?_eq_some_iff : hexValue? d = some n ↔ Denotes d n := by
  have decimals : '0'.toNat = 48 ∧ '9'.toNat = 57 := ⟨rfl, rfl⟩
  have small : 'a'.toNat = 97 ∧ 'f'.toNat = 102 := ⟨rfl, rfl⟩
  have capital : 'A'.toNat = 65 ∧ 'F'.toNat = 70 := ⟨rfl, rfl⟩
  simp only [hexValue?, isDigit, Bool.and_eq_true, decide_eq_true_eq, le_iff_toNat_le, Denotes]
  split
  · simp only [Option.some.injEq]
    omega
  · split
    · simp only [Option.some.injEq]
      omega
    · split
      · simp only [Option.some.injEq]
        omega
      · simp only [reduceCtorEq, false_iff]
        omega

theorem isHexDigit_iff : isHexDigit d = true ↔ IsHex d := by
  simp only [isHexDigit, Option.isSome_iff_exists, hexValue?_eq_some_iff, IsHex]

theorem IsHex.utf8Size (h : IsHex d) : d.utf8Size = 1 := by
  have range := toNat_of_isHexDigit (isHexDigit_iff.mpr h)
  refine Char.utf8Size_eq_one_iff.mpr (UInt32.le_iff_toNat_le.mpr ?_)
  change d.toNat ≤ 127
  omega

theorem utf8ByteSize_of_isHex {ds : List Char} (h : ∀ d ∈ ds, IsHex d) :
    (String.ofList ds).utf8ByteSize = ds.length := by
  induction ds with
  | nil => rfl
  | cons d ds ih =>
    rw [String.ofList_cons, String.utf8ByteSize_append, String.utf8ByteSize_singleton,
      (h d List.mem_cons_self).utf8Size, ih fun e he => h e (List.mem_cons_of_mem d he),
      List.length_cons, Nat.add_comm]

theorem isValid_of_isHex {ds : List Char} (h : ∀ d ∈ ds, IsHex d) {k : Nat} (hk : k ≤ ds.length) :
    String.Pos.Raw.IsValid (String.ofList ds) ⟨k⟩ := by
  have front : ∀ d ∈ ds.take k, IsHex d := fun d hd => h d (List.mem_of_mem_take hd)
  refine String.Pos.Raw.isValid_ofList.mpr ⟨k, ?_⟩
  rw [utf8ByteSize_of_isHex front, List.length_take, Nat.min_eq_left hk]

end Recolor.Text

namespace Recolor.Color

variable {cs ds : List Char} {bytes : List UInt8} {d : Char} {n : Nat} {c : Color}
  {r : Except HexError Color}

inductive Unsigned : List Char → List Char → Prop where
  | signed (ds : List Char) : Unsigned ('#' :: ds) ds
  | plain {ds : List Char} (first : '#' ∉ ds.head?) : Unsigned ds ds

inductive Pairs : List Char → List UInt8 → Prop where
  | nil : Pairs [] []
  | cons {d e : Char} {high low : Nat} {byte : UInt8} {ds : List Char} {bytes : List UInt8}
      (hd : Text.Denotes d high) (he : Text.Denotes e low) (value : byte.toNat = 16 * high + low)
      (rest : Pairs ds bytes) : Pairs (d :: e :: ds) (byte :: bytes)

inductive Reads : List Char → Except HexError Color → Prop where
  | empty : Reads [] (.error .empty)
  | foreign {front back : List Char} {found : Char} (digits : ∀ d ∈ front, Text.IsHex d)
      (other : ¬ Text.IsHex found) : Reads (front ++ found :: back) (.error (.digit found))
  | length {ds : List Char} (digits : ∀ d ∈ ds, Text.IsHex d) (zero : ds.length ≠ 0)
      (six : ds.length ≠ 6) (eight : ds.length ≠ 8) : Reads ds (.error (.length ds.length))
  | solid {ds : List Char} {red green blue : UInt8} (pairs : Pairs ds [red, green, blue]) :
      Reads ds (.ok ⟨red, green, blue, 255⟩)
  | full {ds : List Char} {red green blue alpha : UInt8}
      (pairs : Pairs ds [red, green, blue, alpha]) : Reads ds (.ok ⟨red, green, blue, alpha⟩)

theorem toUpper_of_denotes (h : Text.Denotes d n) : d.toUpper = digitOfValue n := by
  have spelled {code : Nat} (h : d.toNat = code) : d = Char.ofNat code := by
    rw [← h, Char.ofNat_toNat]
  rcases h with ⟨ten, code⟩ | ⟨ten, sixteen, code⟩
  · have table : ∀ k : Fin 10,
        (Char.ofNat ('0'.toNat + k.val)).toUpper = digitOfValue k.val := by decide
    rw [spelled code]
    exact table ⟨n, ten⟩
  · have table : ∀ k : Fin 6,
        (Char.ofNat ('a'.toNat + k.val)).toUpper = digitOfValue (10 + k.val) ∧
          (Char.ofNat ('A'.toNat + k.val)).toUpper = digitOfValue (10 + k.val) := by decide
    obtain ⟨k, rfl⟩ := Nat.exists_eq_add_of_le ten
    obtain ⟨small, capital⟩ := table ⟨k, by omega⟩
    rcases code with code | code
    · have code : d.toNat = 'a'.toNat + k := by omega
      rw [spelled code, small]
    · have code : d.toNat = 'A'.toNat + k := by omega
      rw [spelled code, capital]

theorem unsigned_iff : Unsigned cs ds ↔ dropNumberSign cs = ds := by
  unfold dropNumberSign
  split
  · next rest =>
    constructor
    · rintro (_ | first)
      · rfl
      · exact absurd rfl first
    · rintro rfl
      exact .signed _
  · next other =>
    constructor
    · rintro (_ | _)
      · exact absurd rfl (other _)
      · rfl
    · rintro rfl
      refine .plain fun first => ?_
      obtain ⟨rest, rfl⟩ := List.head?_eq_some_iff.mp first
      exact other rest rfl

theorem Pairs.isHex (h : Pairs ds bytes) : ∀ d ∈ ds, Text.IsHex d := by
  induction h with
  | nil => nofun
  | cons hd he _ _ ih =>
    simp only [List.forall_mem_cons]
    exact ⟨⟨_, hd⟩, ⟨_, he⟩, ih⟩

theorem Pairs.length (h : Pairs ds bytes) : ds.length = 2 * bytes.length := by
  induction h with
  | nil => rfl
  | cons _ _ _ _ ih =>
    simp only [List.length_cons, ih]
    omega

theorem Pairs.values (h : Pairs ds bytes) :
    ds.filterMap Text.hexValue? = bytes.flatMap fun byte => [byte.toNat / 16, byte.toNat % 16] := by
  induction h with
  | nil => rfl
  | @cons d e high low byte ds bytes hd he value _ ih =>
    obtain ⟨above, below⟩ := halves_of_toNat he.lt value
    simp only [List.filterMap_cons, Text.hexValue?_eq_some_iff.mpr hd,
      Text.hexValue?_eq_some_iff.mpr he, ih, List.flatMap_cons, above, below, List.cons_append,
      List.nil_append]

theorem Pairs.map_toUpper (h : Pairs ds bytes) :
    ds.map Char.toUpper = bytes.flatMap channelDigits := by
  induction h with
  | nil => rfl
  | @cons d e high low byte ds bytes hd he value _ ih =>
    obtain ⟨above, below⟩ := halves_of_toNat he.lt value
    simp only [List.map_cons, ih, List.flatMap_cons, channelDigits, above, below, List.cons_append,
      List.nil_append, toUpper_of_denotes hd, toUpper_of_denotes he]

theorem exists_pairs (n : Nat) (digits : ∀ d ∈ ds, Text.IsHex d) (even : ds.length = 2 * n) :
    ∃ bytes, bytes.length = n ∧ Pairs ds bytes := by
  induction n generalizing ds with
  | zero =>
    obtain rfl := List.length_eq_zero_iff.mp even
    exact ⟨[], rfl, .nil⟩
  | succ n ih =>
    match ds, even with
    | d :: e :: ds, even =>
      simp only [List.forall_mem_cons] at digits
      obtain ⟨⟨high, hd⟩, ⟨low, he⟩, digits⟩ := digits
      obtain ⟨bytes, length, pairs⟩ := ih digits (by simp only [List.length_cons] at even; omega)
      exact ⟨channel high low :: bytes, by rw [List.length_cons, length],
        .cons hd he (toNat_channel hd.lt he.lt) pairs⟩

theorem ofValues?_eq_none {ns : List Nat} (six : ns.length ≠ 6) (eight : ns.length ≠ 8) :
    ofValues? ns = none := by
  unfold ofValues?
  split
  · exact absurd rfl six
  · exact absurd rfl eight
  · rfl

theorem ofDigits_of_isHex (digits : ∀ d ∈ ds, Text.IsHex d) (zero : ds.length ≠ 0) :
    ofDigits ds =
      (ofValues? (ds.filterMap Text.hexValue?)).elim (.error (.length ds.length)) .ok := by
  have nonempty : ds.isEmpty = false := by
    rw [List.isEmpty_eq_false_iff]
    exact List.length_pos_iff.mp (Nat.pos_of_ne_zero zero)
  have none_foreign : ds.find? (fun d => !Text.isHexDigit d) = none := by
    rw [List.find?_eq_none]
    intro d hd
    simp [Text.isHexDigit_iff.mpr (digits d hd)]
  rw [ofDigits, nonempty, none_foreign]
  cases ofValues? (ds.filterMap Text.hexValue?) <;> rfl

theorem ofDigits_of_pairs {byte : UInt8} (pairs : Pairs ds (byte :: bytes)) :
    ofDigits ds =
      (ofValues? ((byte :: bytes).flatMap fun b => [b.toNat / 16, b.toNat % 16])).elim
        (.error (.length ds.length)) .ok := by
  have zero : ds.length ≠ 0 := by simp [pairs.length]
  rw [ofDigits_of_isHex pairs.isHex zero, pairs.values]

theorem ofDigits_of_reads (h : Reads ds r) : ofDigits ds = r := by
  cases h with
  | empty => rfl
  | @foreign front back found digits other =>
    have first : (front ++ found :: back).find? (fun d => !Text.isHexDigit d) = some found := by
      refine List.find?_eq_some_iff_append.mpr ⟨?_, front, back, rfl, fun d hd => ?_⟩
      · simpa using mt Text.isHexDigit_iff.mp other
      · simpa using Text.isHexDigit_iff.mpr (digits d hd)
    have nonempty : (front ++ found :: back).isEmpty = false := by simp
    rw [ofDigits, nonempty, first]
    rfl
  | length digits zero six eight =>
    have count : (ds.filterMap Text.hexValue?).length = ds.length :=
      List.filterMap_length_eq_length.mpr fun d hd => Text.isHexDigit_iff.mpr (digits d hd)
    rw [ofDigits_of_isHex digits zero, ofValues?_eq_none (count ▸ six) (count ▸ eight)]
    rfl
  | solid pairs =>
    rw [ofDigits_of_pairs pairs]
    simp only [List.flatMap_cons, List.flatMap_nil, List.cons_append, List.nil_append, ofValues?,
      channel_halves, Option.elim_some]
  | full pairs =>
    rw [ofDigits_of_pairs pairs]
    simp only [List.flatMap_cons, List.flatMap_nil, List.cons_append, List.nil_append, ofValues?,
      channel_halves, Option.elim_some]

theorem exists_reads (ds : List Char) : ∃ r, Reads ds r := by
  cases found : ds.find? fun d => !Text.isHexDigit d with
  | some d =>
    obtain ⟨other, front, back, rfl, digits⟩ := List.find?_eq_some_iff_append.mp found
    refine ⟨_, .foreign (fun e he => Text.isHexDigit_iff.mp ?_) fun hex => ?_⟩
    · simpa using digits e he
    · simp [Text.isHexDigit_iff.mpr hex] at other
  | none =>
    have digits : ∀ d ∈ ds, Text.IsHex d := fun d hd =>
      Text.isHexDigit_iff.mp (by simpa using List.find?_eq_none.mp found d hd)
    -- only digits are left, and their number decides
    by_cases zero : ds.length = 0
    · obtain rfl := List.length_eq_zero_iff.mp zero
      exact ⟨_, .empty⟩
    · by_cases six : ds.length = 6
      · obtain ⟨bytes, three, pairs⟩ := exists_pairs 3 digits six
        match bytes, three with
        | [_, _, _], _ => exact ⟨_, .solid pairs⟩
      · by_cases eight : ds.length = 8
        · obtain ⟨bytes, four, pairs⟩ := exists_pairs 4 digits eight
          match bytes, four with
          | [_, _, _, _], _ => exact ⟨_, .full pairs⟩
        · exact ⟨_, .length digits zero six eight⟩

theorem ofDigits_eq_iff : ofDigits ds = r ↔ Reads ds r := by
  refine ⟨?_, ofDigits_of_reads⟩
  rintro rfl
  obtain ⟨s, h⟩ := exists_reads ds
  rwa [ofDigits_of_reads h]

theorem hexDigits_of_reads (h : Reads ds (.ok c)) :
    c.hexDigits = ds.map Char.toUpper ++ if ds.length = 6 then ['F', 'F'] else [] := by
  cases h with
  | solid pairs =>
    have last : channelDigits 255 = ['F', 'F'] := by decide
    rw [pairs.map_toUpper, pairs.length, ← last]
    rfl
  | full pairs =>
    rw [pairs.map_toUpper, pairs.length]
    rfl

theorem ofHex_eq_iff_reads :
    (∀ s : String, ∃ inner digits, Text.Trimmed s.toList inner ∧ Unsigned inner digits ∧
      (∀ r, ofHex s = r ↔ Reads digits r) ∧
      ((∀ d ∈ digits, Text.IsHex d) →
        (String.ofList digits).utf8ByteSize = digits.length ∧
          ∀ k ≤ digits.length, String.Pos.Raw.IsValid (String.ofList digits) ⟨k⟩) ∧
      ∀ c, ofHex s = .ok c → c.hex =
        String.ofList (digits.map Char.toUpper ++ if digits.length = 6 then ['F', 'F'] else [])) ∧
    (∀ d e high low, Text.hexValue? d = some high → Text.hexValue? e = some low →
      Text.Denotes d high ∧ d.toNat < UInt8.size ∧ 16 * high + low < UInt8.size) ∧
    ∀ c : Color, ofHex c.hex = .ok c := by
  refine ⟨fun s => ?_, fun d e high low hd he => ?_, fun c => ?_⟩
  · refine ⟨_, _, Text.trimmed_trim s.toList, unsigned_iff.mpr rfl, fun r => ofDigits_eq_iff,
      fun digits => ⟨Text.utf8ByteSize_of_isHex digits, fun k => Text.isValid_of_isHex digits⟩,
      fun c done => ?_⟩
    rw [hex, hexDigits_of_reads (ofDigits_eq_iff.mp done)]
  · have denotes := Text.hexValue?_eq_some_iff.mp hd
    have range := Text.toNat_of_isHexDigit (Text.isHexDigit_iff.mpr ⟨high, denotes⟩)
    have high16 := denotes.lt
    have low16 := (Text.hexValue?_eq_some_iff.mp he).lt
    unfold UInt8.size
    exact ⟨denotes, by omega, by omega⟩
  · rw [ofHex, hex, String.toList_ofList, ofChars_hexDigits]

end Recolor.Color
