import Recolor.Proofs.Chain.Cells
import Recolor.Proofs.Chain.Grammar

namespace Recolor.Chain

variable {index : Nat} {piece rest : List Char} {s : String} {e : ChainError}

def Spoilt (piece : List Char) : Prop :=
  '=' ∉ piece ∨ ∃ key value, piece = key ++ '=' :: value ∧ '=' ∉ key ∧
    ((∃ cause, Color.ofChars key = .error cause) ∨ ∃ cause, Color.ofChars value = .error cause)

inductive Blames (index : Nat) : List Char → ChainError → Prop where
  | whole {piece : List Char} (absent : '=' ∉ piece) :
      Blames index piece (.malformed index (String.ofList piece))
  | key {key value : List Char} {cause : Color.HexError} (ends : '=' ∉ key)
      (hk : Color.ofChars key = .error cause) :
      Blames index (key ++ '=' :: value) (.color index cause)
  | value {key value : List Char} {color : Color} {cause : Color.HexError} (ends : '=' ∉ key)
      (hk : Color.ofChars key = .ok color) (hv : Color.ofChars value = .error cause) :
      Blames index (key ++ '=' :: value) (.color index cause)

theorem readGroup_append {key value : List Char} (ends : '=' ∉ key) :
    readGroup index (key ++ '=' :: value) = (do
      let k ← readColor index key
      let v ← readColor index value
      return ⟨k, v⟩) := by
  rw [readGroup, cut_append ends]

theorem readGroup_of_blames (h : Blames index piece e) : readGroup index piece = .error e := by
  cases h with
  | whole absent => rw [readGroup, cut_eq_none_iff.mpr absent]
  | key ends hk =>
    rw [readGroup_append ends, readColor, hk]
    rfl
  | value ends hk hv =>
    rw [readGroup_append ends, readColor, hk, readColor, hv]
    rfl

theorem blames_of_readGroup (h : readGroup index piece = .error e) : Blames index piece e := by
  cases found : cut '=' piece with
  | none =>
    rw [readGroup, found] at h
    cases h
    exact .whole (cut_eq_none_iff.mp found)
  | some parts =>
    obtain ⟨rfl, ends⟩ := cut_eq_some_iff.mp found
    simp only [readGroup_append ends, readColor, Attempt.bind_eq_error_iff,
      Attempt.mapError_eq_error_iff, Attempt.mapError_eq_ok_iff] at h
    rcases h with ⟨cause, hk, rfl⟩ | ⟨color, hk, ⟨cause, hv, rfl⟩ | ⟨_, -, ⟨⟩⟩⟩
    · exact .key ends hk
    · exact .value ends hk hv

theorem readGroup_eq_error_iff : readGroup index piece = .error e ↔ Blames index piece e :=
  ⟨blames_of_readGroup, readGroup_of_blames⟩

theorem exists_blames_iff : (∃ e, Blames index piece e) ↔ Spoilt piece := by
  constructor
  · rintro ⟨e, absent | ⟨ends, hk⟩ | ⟨ends, -, hv⟩⟩
    · exact .inl absent
    · exact .inr ⟨_, _, rfl, ends, .inl ⟨_, hk⟩⟩
    · exact .inr ⟨_, _, rfl, ends, .inr ⟨_, hv⟩⟩
  · rintro (absent | ⟨key, value, rfl, ends, bad⟩)
    · exact ⟨_, .whole absent⟩
    · cases hk : Color.ofChars key with
      | error cause => exact ⟨_, .key ends hk⟩
      | ok color =>
        obtain ⟨cause, hv⟩ := bad.resolve_left fun ⟨cause, h⟩ => nomatch hk.symm.trans h
        exact ⟨_, .value ends hk hv⟩

theorem pieces_operator_append (rest : List Char) :
    pieces (operator.toList ++ rest) = pieces rest := by
  obtain ⟨first, hrest, absent, each⟩ := exists_first rest
  -- the operator has no semicolon, so it only lengthens what stands before the first one
  have start : ';' ∉ operator.toList ++ first :=
    List.not_mem_append (by decide) absent
  rw [hrest, ← List.append_assoc, pieces_flatMap start each, ← hrest]

theorem read_eq_readGroups (h : operator.toList <+: s.toList) :
    read s = readGroups 0 (pieces s.toList) := by
  obtain ⟨rest, hs⟩ := h
  rw [read_of_operator hs.symm, ← hs, pieces_operator_append]

theorem exists_readGroup_eq_error_iff (index : Nat) (piece : List Char) :
    (∃ e, readGroup index piece = .error e) ↔ Spoilt piece := by
  simp only [readGroup_eq_error_iff, exists_blames_iff]

theorem read_eq_error_iff (h : operator.toList <+: s.toList) :
    read s = .error e ↔
      ∃ k piece, Attempt.First Spoilt (pieces s.toList) k piece ∧ Blames k piece e := by
  rw [read_eq_readGroups h, readGroups_eq_each,
    Attempt.each_eq_error_iff exists_readGroup_eq_error_iff]
  simp only [readGroup_eq_error_iff, Nat.zero_add]

theorem exists_read_eq_error_iff (h : operator.toList <+: s.toList) :
    (∃ e, read s = .error e) ↔ ∃ piece ∈ pieces s.toList, Spoilt piece := by
  simp only [read_eq_readGroups h, readGroups_eq_each,
    Attempt.exists_each_eq_error_iff exists_readGroup_eq_error_iff]

theorem read_fails_at_first (s : String) :
    (∃ front, s.toList = front ++ (pieces s.toList).flatMap (';' :: ·) ∧ ';' ∉ front ∧
      ∀ piece ∈ pieces s.toList, ';' ∉ piece) ∧
    (¬ operator.toList <+: s.toList →
      read s = .error .missingOperator ∧ Cell.ofChain s = .error .missingOperator) ∧
    (operator.toList <+: s.toList →
      ((∃ e, read s = .error e) ↔ ∃ piece ∈ pieces s.toList, Spoilt piece) ∧
      (∀ e, read s = .error e ↔
        ∃ k piece, Attempt.First Spoilt (pieces s.toList) k piece ∧ Blames k piece e) ∧
      (∀ e, read s = .error e → Cell.ofChain s = .error e) ∧
      ∀ entries, read s = .ok entries →
        ((∃ e, Cell.ofChain s = .error e) ↔ ∃ r ∈ entries, r.IsForeign) ∧
        ∀ e, Cell.ofChain s = .error e ↔
          ∃ k r, Attempt.First Replacement.IsForeign entries k r ∧ e = .unknownSlot k r.key ∧
            e.message = "entry " ++ toString k ++ " key " ++ r.key.hex ++
              " is not a template color") := by
  refine ⟨exists_first s.toList, fun missing => ?_, fun there => ?_⟩
  · have fails := read_of_not_operator missing
    exact ⟨fails, Cell.ofChain_of_read_error fails⟩
  · refine ⟨exists_read_eq_error_iff there, fun e => read_eq_error_iff there,
      fun e => Cell.ofChain_of_read_error, fun entries done => ?_⟩
    rw [Cell.ofChain_of_read_ok done]
    refine ⟨Cell.exists_ofReplacements_eq_error_iff, fun e => ?_⟩
    simp only [Cell.ofReplacements_eq_error_iff, Nat.zero_add]
    constructor
    · rintro ⟨k, r, first, rfl⟩
      exact ⟨k, r, first, rfl, rfl⟩
    · rintro ⟨k, r, first, he, -⟩
      exact ⟨k, r, first, he⟩

-- the first key is foreign, but the chain cannot even be read
example : Cell.ofChain "?replace;FF0000=00FF00;bad" = .error (.malformed 1 "bad") := by decide

end Recolor.Chain
