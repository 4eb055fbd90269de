import Recolor.Json.Text

namespace Recolor.Json

theorem induct {motive : Json → Prop} (null : motive .null) (bool : ∀ b, motive (.bool b))
    (integer : ∀ i, motive (.integer i)) (real : ∀ x, motive (.real x))
    (string : ∀ s, motive (.string s))
    (array : ∀ items : List Json, (∀ item ∈ items, motive item) → motive (.array items))
    (object : ∀ ms : Members, (∀ m ∈ ms, motive m.2) → motive (.object ms)) (j : Json) :
    motive j :=
  -- The motives of items and of members say that each of them has the property.
  @Json.rec motive (fun items => ∀ item ∈ items, motive item) (fun ms => ∀ m ∈ ms, motive m.2)
    (fun m => motive m.2) null bool integer real string array object nofun
    (fun _ _ first rest => List.forall_mem_cons.mpr ⟨first, rest⟩) nofun
    (fun _ _ first rest => List.forall_mem_cons.mpr ⟨first, rest⟩) (fun _ _ value => value) j

def memberText (m : String × Json) : String := quoted m.1 ++ ":" ++ compact m.2

theorem compact_array (items : List Json) :
    compact (.array items) = "[" ++ ",".intercalate (items.map compact) ++ "]" := by
  have parts : compactItems items = ",".intercalate (items.map compact) := by
    induction items with
    | nil => rfl
    | cons item items ih =>
      cases items with
      | nil => rfl
      | cons next items =>
        rw [List.map_cons, List.map_cons, String.intercalate_cons_cons, ← List.map_cons, ← ih]
        rfl
  rw [← parts]
  rfl

theorem compact_object (ms : Members) :
    compact (.object ms) = "\x7b" ++ ",".intercalate (ms.map memberText) ++ "\x7d" := by
  have parts : compactMembers ms = ",".intercalate (ms.map memberText) := by
    induction ms with
    | nil => rfl
    | cons m ms ih =>
      cases ms with
      | nil => rfl
      | cons next ms =>
        rw [List.map_cons, List.map_cons, String.intercalate_cons_cons, ← List.map_cons, ← ih]
        rfl
  rw [← parts]
  rfl

def isPlain (c : Char) : Bool := c.isAlphanum || c == '-' || c == '+' || c == '.'

def Plain (s : String) : Prop := ∀ c ∈ s.toList, isPlain c = true

instance (s : String) : Decidable (Plain s) := List.decidableBAll _ _

theorem isPlain_digit {n : Nat} {c : Char} (h : c ∈ Nat.toDigits 10 n) : isPlain c = true := by
  have digit : c.isDigit = true := Nat.isDigit_of_mem_toDigits (by decide) (by decide) h
  simp [isPlain, Char.isAlphanum, digit]

theorem isPlain_zero {n : Nat} {c : Char} (h : c ∈ List.replicate n '0') : isPlain c = true :=
  List.eq_of_mem_replicate h ▸ rfl

namespace Plain

variable {s t : String} {cs ds : List Char}

theorem append (hs : Plain s) (ht : Plain t) : Plain (s ++ t) := fun c hc => by
  rw [String.toList_append, List.mem_append] at hc
  exact hc.elim (hs c) (ht c)

theorem ofList (h : ∀ c ∈ cs, isPlain c = true) : Plain (String.ofList cs) := by
  rwa [Plain, String.toList_ofList]

theorem ofList_append (hc : ∀ c ∈ cs, isPlain c = true) (hd : ∀ d ∈ ds, isPlain d = true) :
    Plain (String.ofList (cs ++ ds)) :=
  ofList fun c h => (List.mem_append.mp h).elim (hc c) (hd c)

theorem natRepr (n : Nat) : Plain n.repr := fun _ h =>
  isPlain_digit (Nat.toList_repr ▸ h)

theorem intRepr (i : Int) : Plain i.repr := by
  cases i with
  | ofNat n => exact natRepr n
  | negSucc n =>
    have sign : Plain "-" := by decide
    exact sign.append (natRepr (n + 1))

theorem exponent (layout : Decimal.Layout) (power : Int) : Plain (layout.exponent power) := by
  have mark : Plain "e" := by decide
  unfold Decimal.Layout.exponent
  refine (mark.append ?_).append (intRepr power)
  split <;> decide

theorem layoutText (layout : Decimal.Layout) (d : Decimal) : Plain (layout.text d) := by
  have first (n : Nat) : Plain (String.ofList ((Nat.toDigits 10 d.digits).take n)) :=
    ofList fun _ h => isPlain_digit (List.mem_of_mem_take h)
  have last (n : Nat) : Plain (String.ofList ((Nat.toDigits 10 d.digits).drop n)) :=
    ofList fun _ h => isPlain_digit (List.mem_of_mem_drop h)
  have point : Plain "." := by decide
  have ending : Plain ".0" := by decide
  have leading : Plain "0." := by decide
  unfold Decimal.Layout.text
  dsimp only
  split
  · split
    · exact (ofList_append (fun _ => isPlain_digit) fun _ => isPlain_zero).append ending
    · split
      · exact ((first _).append point).append (last _)
      · exact leading.append (ofList_append (fun _ => isPlain_zero) fun _ => isPlain_digit)
  · refine ((first _).append ?_).append (exponent layout _)
    split
    · decide
    · exact point.append (last _)

theorem realText (x : Binary64) : Plain (Json.realText x) := by
  unfold Json.realText
  split
  · cases x with
    | finite s m e =>
      refine append ?_ ?_
      · cases s <;> decide
      · split
        · decide
        · exact layoutText _ _
    | infinite s => cases s <;> decide
    | undefined => decide
  · decide

end Plain

def isEscaped (c : Char) : Bool := decide (c.toNat < 0x20) || c == '"' || c == '\\'

def isEscape (c : Char) : Bool := isPlain c || c == '"' || c == '\\'

theorem escapeChar_of_not_isEscaped {c : Char} (h : isEscaped c = false) : escapeChar c = [c] := by
  simp only [isEscaped, Bool.or_eq_false_iff, decide_eq_false_iff_not, beq_eq_false_iff_ne] at h
  obtain ⟨⟨printed, quote⟩, backslash⟩ := h
  have differ {d : Char} (control : d.toNat < 0x20) : c ≠ d := by
    rintro rfl
    exact printed control
  rw [escapeChar, if_neg quote, if_neg backslash, if_neg (differ (by decide)),
    if_neg (differ (by decide)), if_neg (differ (by decide)), if_neg (differ (by decide)),
    if_neg (differ (by decide)), if_neg printed]

theorem isEscape_of_mem_escapeChar {c d : Char} (h : isEscaped c = true) (hd : d ∈ escapeChar c) :
    isEscape d = true := by
  simp only [isEscaped, Bool.or_eq_true, decide_eq_true_eq, beq_iff_eq] at h
  rcases h with (control | rfl) | rfl
  · have table : ∀ n : Fin 0x20, (escapeChar (Char.ofNat n)).all isEscape = true := by decide
    rw [← c.ofNat_toNat] at hd
    exact List.all_eq_true.mp (table ⟨c.toNat, control⟩) d hd
  · have quote : (escapeChar '"').all isEscape = true := by decide
    exact List.all_eq_true.mp quote d hd
  · have backslash : (escapeChar '\\').all isEscape = true := by decide
    exact List.all_eq_true.mp backslash d hd

end Recolor.Json
