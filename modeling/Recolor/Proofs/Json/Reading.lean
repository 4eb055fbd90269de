import Recolor.Json.Record
import Recolor.Proofs.Json.Compact
import Recolor.Proofs.Text.Pieces

namespace Recolor.Json.Document

open Text (Stops)

variable {rest : List Char}

section Numerals

def integerNumeral (i : Int) : Numeral := ⟨decide (i < 0), Nat.toDigits 10 i.natAbs, [], none⟩

def continuesNumeral (c : Char) : Bool := Text.isDigit c || c == '.' || c == 'e' || c == 'E'

theorem span_append {P : Char → Bool} {cs : List Char} (all : ∀ c ∈ cs, P c = true)
    (stops : Stops P rest) : (cs ++ rest).span P = (cs, rest) := by
  rw [List.span_eq_takeWhile_dropWhile, List.takeWhile_append_of_pos all,
    List.dropWhile_append_of_pos all]
  cases rest with
  | nil => simp
  | cons c rest => simp [stops c rfl]

theorem isDigit_of_mem_toDigits {n : Nat} {c : Char} (h : c ∈ Nat.toDigits 10 n) :
    Text.isDigit c = true :=
  Nat.isDigit_of_mem_toDigits (by decide) (by decide) h

theorem head?_toDigits_ne {n : Nat} (h : 0 < n) : (Nat.toDigits 10 n).head? ≠ some '0' := by
  induction n using Nat.strong_induction_on with
  | _ n ih =>
    rcases Nat.lt_or_ge n 10 with small | large
    · rw [Nat.toDigits_of_lt_base small]
      intro zero
      exact absurd (Nat.digitChar_eq_zero.mp (Option.some.inj zero)) (by omega)
    · rw [Nat.toDigits_of_base_le (by decide) large,
        List.head?_append_of_ne_nil _ Nat.toDigits_ne_nil]
      exact ih (n / 10) (by omega) (by omega)

theorem toDigits_ne_cons_cons (n : Nat) (c : Char) (cs : List Char) :
    Nat.toDigits 10 n ≠ '0' :: c :: cs := by
  intro h
  rcases Nat.eq_zero_or_pos n with rfl | positive
  · cases h
  · exact head?_toDigits_ne positive (h ▸ rfl)

theorem readWhole_append (n : Nat) (stops : Stops Text.isDigit rest) :
    readWhole (Nat.toDigits 10 n ++ rest) = some (Nat.toDigits 10 n, rest) := by
  unfold readWhole
  rw [span_append (fun _ => isDigit_of_mem_toDigits) stops]
  split
  · next none => exact absurd (Prod.mk.inj none).1 Nat.toDigits_ne_nil
  · next zero => exact absurd (Prod.mk.inj zero).1 (toDigits_ne_cons_cons n _ _)
  · next same =>
    obtain ⟨rfl, rfl⟩ := Prod.mk.inj same
    rfl

theorem readFraction_eq (stops : Stops continuesNumeral rest) :
    readFraction rest = some ([], rest) := by
  cases rest with
  | nil => rfl
  | cons c rest =>
    unfold readFraction
    split
    · next point =>
      obtain ⟨rfl, -⟩ := List.cons.inj point
      cases stops '.' rfl
    · rfl

theorem readExponent_eq (stops : Stops continuesNumeral rest) :
    readExponent rest = some (none, rest) := by
  cases rest with
  | nil => rfl
  | cons c rest =>
    have other := stops c rfl
    simp only [continuesNumeral, Bool.or_eq_false_iff, beq_eq_false_iff_ne] at other
    rw [readExponent, if_neg (by tauto)]

theorem toList_intRepr (i : Int) :
    i.repr.toList = (if i < 0 then ['-'] else []) ++ Nat.toDigits 10 i.natAbs := by
  cases i with
  | ofNat n => exact Nat.toList_repr
  | negSucc n =>
    have sign : (Int.negSucc n).repr = "-" ++ (n + 1).repr := rfl
    rw [sign, String.toList_append, Nat.toList_repr, if_pos (Int.negSucc_lt_zero n),
      Int.natAbs_negSucc]
    rfl

theorem readNumeral_append (i : Int) (stops : Stops continuesNumeral rest) :
    readNumeral (i.repr.toList ++ rest) = some (integerNumeral i, rest) := by
  have digits : Stops Text.isDigit rest := fun c hc => by
    have other := stops c hc
    simp only [continuesNumeral, Bool.or_eq_false_iff] at other
    exact other.1.1.1
  have whole := readWhole_append i.natAbs digits
  rw [toList_intRepr, List.append_assoc]
  unfold readNumeral
  by_cases negative : i < 0
  · simp [negative, whole, readFraction_eq stops, readExponent_eq stops, integerNumeral]
  · obtain ⟨c, cs, first⟩ := List.exists_cons_of_ne_nil (@Nat.toDigits_ne_nil i.natAbs 10)
    have digit : Text.isDigit c = true := isDigit_of_mem_toDigits (first ▸ List.mem_cons_self)
    have unsigned : c ≠ '-' := by
      rintro rfl
      cases digit
    rw [first, List.cons_append] at whole
    simp [negative, first, whole, unsigned, readFraction_eq stops, readExponent_eq stops,
      integerNumeral]

theorem integer?_integerNumeral {i : Int} (least : -9223372036854775808 ≤ i)
    (greatest : i < 18446744073709551616) : (integerNumeral i).integer? = some i := by
  have limit : Numeral.significandLimit = 18446744073709551616 := rfl
  have size : Nat.ofDigitChars 10 (Nat.toDigits 10 i.natAbs) 0 = i.natAbs :=
    Nat.ofDigitChars_toDigits (by decide) (by decide)
  unfold Numeral.integer? integerNumeral
  refine (if_pos rfl).trans ?_
  dsimp only
  rw [size, limit]
  by_cases negative : i < 0
  · rw [if_pos (decide_eq_true negative), if_pos (by omega)]
    exact congrArg some (by omega)
  · rw [if_neg (not_congr decide_eq_true_iff |>.mpr negative), if_pos (by omega)]
    exact congrArg some (by omega)

end Numerals

section Strings

variable {done : List Char} {whole : Bool}

theorem unit?_controlEscape {n : Nat} (control : n < 0x20) :
    unit? '0' '0' (Nat.digitChar (n / 16)) (Nat.digitChar (n % 16)) = some n := by
  have table : ∀ n : Fin 0x20,
      unit? '0' '0' (Nat.digitChar (n / 16)) (Nat.digitChar (n % 16)) = some n.val := by decide
  exact table ⟨n, control⟩

theorem readString_eq_none {a b c d : Char} (h : unit? a b c d = none) (rest : List Char) :
    readString done whole ('\\' :: 'u' :: a :: b :: c :: d :: rest) = none := by
  by_cases twin : ∃ a' b' c' d' cs, rest = '\\' :: 'u' :: a' :: b' :: c' :: d' :: cs
  · obtain ⟨a', b', c', d', cs, rfl⟩ := twin
    rw [readString.eq_2, h]
  · rw [readString.eq_3 _ _ _ _ _ _ _ fun a' b' c' d' cs h => twin ⟨a', b', c', d', cs, h⟩, h]

theorem readString_controlEscape {n : Nat} (control : n < 0x20) (rest : List Char) :
    readString done whole (controlEscape n ++ rest) =
      readString (Char.ofNat n :: done) whole rest := by
  have unit := unit?_controlEscape control
  have high : isHighSurrogate n = false := by simp [isHighSurrogate]; omega
  have low : isLowSurrogate n = false := by simp [isLowSurrogate]; omega
  simp only [controlEscape, List.cons_append, List.nil_append]
  by_cases twin : ∃ a b c d cs, rest = '\\' :: 'u' :: a :: b :: c :: d :: cs
  · obtain ⟨a, b, c, d, cs, rfl⟩ := twin
    rw [readString.eq_2, unit]
    cases other : unit? a b c d with
    | some n' => simp [high, low]
    | none => exact (readString_eq_none other cs).symm
  · rw [readString.eq_3 _ _ _ _ _ _ _ fun a b c d cs h => twin ⟨a, b, c, d, cs, h⟩, unit]
    simp [high, low]

theorem readString_shortEscape {c e : Char} (h : shortEscape? e = some c) (rest : List Char) :
    readString done whole ('\\' :: e :: rest) = readString (c :: done) whole rest := by
  have short : e ≠ 'u' := by
    rintro rfl
    cases h
  rw [readString.eq_4 _ _ _ _ (fun _ _ _ _ _ _ _ _ _ unit _ => short unit)
    (fun _ _ _ _ _ unit _ => short unit), h]

theorem readString_escapeChar (c : Char) (rest : List Char) :
    readString done whole (escapeChar c ++ rest) = readString (c :: done) whole rest := by
  unfold escapeChar
  split_ifs with quote backslash h h h h h control
  · subst quote
    exact readString_shortEscape rfl rest
  · subst backslash
    exact readString_shortEscape rfl rest
  iterate 5
    · subst h
      exact readString_shortEscape rfl rest
  · rw [readString_controlEscape control, c.ofNat_toNat]
  · rw [List.singleton_append, readString.eq_5 _ _ _ _ quote
      (fun _ _ _ _ _ _ _ _ _ h _ => backslash h) (fun _ _ _ _ _ h _ => backslash h)
      (fun _ _ h _ => backslash h), if_neg control]

theorem readString_escaped (cs rest : List Char) :
    readString done true (cs.flatMap escapeChar ++ '"' :: rest) =
      some (some (String.ofList (done.reverse ++ cs)), rest) := by
  induction cs generalizing done with
  | nil => rw [List.flatMap_nil, List.nil_append, readString.eq_1, List.append_nil]; rfl
  | cons c cs ih =>
    rw [List.flatMap_cons, List.append_assoc, readString_escapeChar, ih, List.reverse_cons,
      List.append_assoc, List.singleton_append]

theorem toList_quoted (s : String) (rest : List Char) :
    (quoted s).toList ++ rest = '"' :: (s.toList.flatMap escapeChar ++ '"' :: rest) := by
  simp [quoted]

theorem readString_quoted (s : String) (rest : List Char) :
    readString [] true (s.toList.flatMap escapeChar ++ '"' :: rest) = some (some s, rest) := by
  rw [readString_escaped, List.reverse_nil, List.nil_append, String.ofList_toList]

end Strings

section Spelling

def opensValue (c : Char) : Bool := !(isSpace c || c == ']')

structure Spells (s : String) (d : Document) : Prop where
  opens : ∃ c cs, s.toList = c :: cs ∧ opensValue c = true
  value (fuel : Nat) (rest : List Char) (enough : 2 * s.toList.length ≤ fuel)
    (stops : Stops continuesNumeral rest) : readValue fuel (s.toList ++ rest) = some (d, rest)

variable {s : String} {d : Document} {c : Char} {cs : List Char} {fuel : Nat}

theorem skipSpaces_cons (h : isSpace c = false) (cs : List Char) :
    skipSpaces (c :: cs) = c :: cs := by
  rw [skipSpaces, List.dropWhile_cons_of_neg (Bool.eq_false_iff.mp h)]

theorem Spells.read (h : Spells s d) : read s = some d := by
  have whole := h.value (2 * s.toList.length + 2) [] (Nat.le_add_right _ _) Text.stops_nil
  rw [List.append_nil] at whole
  rw [Document.read, readChars, whole]
  rfl

theorem exists_fuel (enough : 2 * (c :: cs).length ≤ fuel) :
    ∃ less, fuel = less + 1 ∧ 2 * cs.length + 1 ≤ less := by
  rw [List.length_cons] at enough
  exact ⟨fuel - 1, by omega, by omega⟩

theorem spells_enclosed {left right : Char} {inside : List Char} (opens : opensValue left = true)
    (text : ∀ rest, s.toList ++ rest = left :: (inside ++ right :: rest))
    (taken : ∀ fuel rest, 2 * inside.length + 1 ≤ fuel →
      readValue (fuel + 1) (left :: (inside ++ right :: rest)) = some (d, rest)) : Spells s d := by
  have whole := (List.append_nil _).symm.trans (text [])
  refine ⟨⟨_, _, whole, opens⟩, fun fuel rest enough _ => ?_⟩
  obtain ⟨fuel, rfl, within⟩ := exists_fuel (whole ▸ enough)
  rw [List.length_append] at within
  rw [text]
  exact taken fuel rest (by omega)

theorem exists_cons_intRepr (i : Int) :
    ∃ c cs, i.repr.toList = c :: cs ∧ Text.isSigned c = true := by
  have some : i.repr.toList ≠ [] := by
    rw [toList_intRepr]
    exact List.append_ne_nil_of_right_ne_nil _ Nat.toDigits_ne_nil
  obtain ⟨c, cs, first⟩ := List.exists_cons_of_ne_nil some
  exact ⟨c, cs, first, Text.isSigned_of_mem_repr (first ▸ List.mem_cons_self)⟩

theorem spells_integer (i : Int) : Spells i.repr (.number (integerNumeral i)) := by
  obtain ⟨c, cs, first, signed⟩ := exists_cons_intRepr i
  have differ {d : Char} (h : Text.isSigned d = false) : c ≠ d := by
    rintro rfl
    exact absurd (signed.symm.trans h) (by decide)
  have blank : isSpace c = false := by
    simp [isSpace, differ (d := ' ') rfl, differ (d := '\t') rfl, differ (d := '\n') rfl,
      differ (d := '\r') rfl]
  refine ⟨⟨c, cs, first, ?_⟩, fun fuel rest enough stops => ?_⟩
  · rw [opensValue, blank, beq_false_of_ne (differ rfl)]
    rfl
  · obtain ⟨fuel, rfl, -⟩ := exists_fuel (first ▸ enough)
    have numeral := readNumeral_append i stops
    rw [first, List.cons_append] at numeral ⊢
    rw [readValue, skipSpaces_cons blank]
    -- No word, quote or bracket begins as a numeral does, so the last case is the one taken.
    split
    case h_7 => simp [numeral]
    all_goals
      next other => exact absurd (List.cons.inj other).1 (differ rfl)

theorem spells_string (s : String) : Spells (quoted s) (.string (some s)) := by
  refine spells_enclosed rfl (toList_quoted s) fun fuel rest _ => ?_
  rw [readValue, skipSpaces_cons rfl]
  simp [readString_quoted]

def joined (texts : List String) : List Char := (",".intercalate texts).toList

theorem joined_cons_cons (first next : String) (texts : List String) :
    joined (first :: next :: texts) = first.toList ++ ',' :: joined (next :: texts) := by
  simp [joined, String.intercalate_cons_cons]

theorem length_joined_cons_cons (first next : String) (texts : List String) :
    (joined (first :: next :: texts)).length =
      first.toList.length + (joined (next :: texts)).length + 1 := by
  rw [joined_cons_cons, List.length_append, List.length_cons]
  rfl

theorem joined_singleton (text : String) : joined [text] = text.toList := by
  simp [joined]

theorem readItems_joined {texts : List String} {items : List Document}
    (each : List.Forall₂ Spells texts items) (nonempty : texts ≠ [])
    (enough : 2 * (joined texts).length + 1 ≤ fuel) (rest : List Char) :
    readItems fuel (joined texts ++ ']' :: rest) = some (items, rest) := by
  induction each generalizing fuel with
  | nil => exact absurd rfl nonempty
  | cons first others ih =>
    obtain _ | fuel := fuel
    · cases enough
    cases others with
    | nil =>
      rw [joined_singleton] at enough ⊢
      rw [readItems, first.value fuel _ (by omega) (Text.stops_cons rfl _)]
      simp [skipSpaces_cons (c := ']') rfl]
    | cons next others =>
      rw [length_joined_cons_cons] at enough
      rw [joined_cons_cons, List.append_assoc, List.cons_append, readItems,
        first.value fuel _ (by omega) (Text.stops_cons rfl _)]
      simp [skipSpaces_cons (c := ',') rfl, @ih fuel (List.cons_ne_nil _ _) (by omega)]

theorem toList_member (key text : String) (rest : List Char) :
    (quoted key ++ ":" ++ text).toList ++ rest =
      '"' :: (key.toList.flatMap escapeChar ++ '"' :: ':' :: (text.toList ++ rest)) := by
  rw [String.toList_append, String.toList_append, List.append_assoc, List.append_assoc,
    toList_quoted]
  rfl

def SpellsMember (s : String) (m : Option String × Document) : Prop :=
  ∃ key text, s = quoted key ++ ":" ++ text ∧ m.1 = some key ∧ Spells text m.2

theorem SpellsMember.opens {m : Option String × Document} (h : SpellsMember s m) :
    ∃ c cs, s.toList = c :: cs ∧ c = '"' := by
  obtain ⟨key, text, rfl, -⟩ := h
  exact ⟨_, _, (List.append_nil _).symm.trans (toList_member key text []), rfl⟩

theorem readMembers_joined {texts : List String} {members : List (Option String × Document)}
    (each : List.Forall₂ SpellsMember texts members) (nonempty : texts ≠ [])
    (enough : 2 * (joined texts).length + 1 ≤ fuel) (rest : List Char) :
    readMembers fuel (joined texts ++ '\x7d' :: rest) = some (members, rest) := by
  induction each generalizing fuel with
  | nil => exact absurd rfl nonempty
  | @cons text m texts members first others ih =>
    obtain ⟨name, value⟩ := m
    obtain ⟨key, text, rfl, rfl, spells⟩ := first
    obtain _ | fuel := fuel
    · cases enough
    have shorter : text.toList.length < (quoted key ++ ":" ++ text).toList.length := by
      simp only [String.toList_append, List.length_append]
      have colon : ":".toList.length = 1 := rfl
      omega
    cases others with
    | nil =>
      rw [joined_singleton] at enough ⊢
      rw [toList_member, readMembers, skipSpaces_cons rfl]
      have read := spells.value fuel ('\x7d' :: rest) (by omega) (Text.stops_cons rfl _)
      simp [readString_quoted, skipSpaces_cons (c := ':') rfl, skipSpaces_cons (c := '\x7d') rfl,
        read]
    | @cons next _ texts _ _ others =>
      rw [length_joined_cons_cons] at enough
      rw [joined_cons_cons, List.append_assoc, List.cons_append, toList_member,
        readMembers, skipSpaces_cons rfl]
      have read := spells.value fuel (',' :: (joined (next :: texts) ++ '\x7d' :: rest))
        (by omega) (Text.stops_cons rfl _)
      simp [readString_quoted, skipSpaces_cons (c := ':') rfl, skipSpaces_cons (c := ',') rfl,
        read, @ih fuel (List.cons_ne_nil _ _) (by omega)]

theorem joined_opens {P : Char → Prop} {first : String} (texts : List String)
    (opens : ∃ c cs, first.toList = c :: cs ∧ P c) :
    ∃ c cs, joined (first :: texts) = c :: cs ∧ P c := by
  obtain ⟨c, cs, same, holds⟩ := opens
  cases texts with
  | nil => exact ⟨c, cs, (joined_singleton first).trans same, holds⟩
  | cons next texts => exact ⟨c, _, by rw [joined_cons_cons, same, List.cons_append], holds⟩

theorem spells_array {items : List Json} {documents : List Document}
    (each : List.Forall₂ (fun j d => Spells j.compact d) items documents) :
    Spells (compact (.array items)) (.array documents) := by
  have text (rest : List Char) : (compact (.array items)).toList ++ rest =
      '[' :: (joined (items.map compact) ++ ']' :: rest) := by
    simp [compact_array, joined]
  refine spells_enclosed rfl text fun fuel rest enough => ?_
  rw [readValue, skipSpaces_cons rfl]
  replace each : List.Forall₂ Spells (items.map compact) documents :=
    List.forall₂_map_left_iff.mpr each
  generalize items.map compact = texts at each enough
  cases each with
  | nil => rfl
  | @cons first _ texts _ spells others =>
    have read := readItems_joined (.cons spells others) (List.cons_ne_nil _ _) enough rest
    obtain ⟨c, cs, same, opens⟩ := joined_opens texts spells.opens
    simp only [opensValue, Bool.not_eq_true', Bool.or_eq_false_iff, beq_eq_false_iff_ne] at opens
    rw [same, List.cons_append] at read ⊢
    simp [skipSpaces_cons opens.1, opens.2, read]

theorem spells_object {ms : Members} {members : List (Option String × Document)}
    (each : List.Forall₂ (fun m n => n.1 = some m.1 ∧ Spells m.2.compact n.2) ms members) :
    Spells (compact (.object ms)) (.object members) := by
  have text (rest : List Char) : (compact (.object ms)).toList ++ rest =
      '\x7b' :: (joined (ms.map memberText) ++ '\x7d' :: rest) := by
    simp [compact_object, joined]
  refine spells_enclosed rfl text fun fuel rest enough => ?_
  rw [readValue, skipSpaces_cons rfl]
  replace each : List.Forall₂ SpellsMember (ms.map memberText) members :=
    List.forall₂_map_left_iff.mpr (each.imp fun m n h => ⟨m.1, m.2.compact, rfl, h.1, h.2⟩)
  generalize ms.map memberText = texts at each enough
  cases each with
  | nil => rfl
  | @cons first _ texts _ spells others =>
    have read := readMembers_joined (.cons spells others) (List.cons_ne_nil _ _) enough rest
    obtain ⟨c, cs, same, rfl⟩ := joined_opens (P := (· = '"')) texts spells.opens
    rw [same, List.cons_append] at read ⊢
    simp [skipSpaces_cons (c := '"') rfl, read]

end Spelling

end Recolor.Json.Document
