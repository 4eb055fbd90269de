import Recolor.Chain.Cell
import Recolor.Proofs.Attempt.Each
import Recolor.Proofs.Chain.RoundTrip
import Recolor.Proofs.Slot.Marker

namespace Recolor

def Replacement.IsForeign (r : Replacement) : Prop := ∀ slot : Slot, slot.marker ≠ r.key

namespace Cell

variable {index : Nat} {r : Replacement} {cell : Cell} {entries : List Replacement}
  {cells : List Cell} {s : String} {e : ChainError}

theorem ofReplacement_eq_ok_iff : ofReplacement index r = .ok cell ↔ r = cell.replacement := by
  obtain ⟨key, value⟩ := r
  unfold ofReplacement
  cases found : Slot.ofMarker? key with
  | none =>
    refine ⟨nofun, ?_⟩
    rintro ⟨⟩
    cases found.symm.trans (Slot.ofMarker?_marker cell.slot)
  | some slot =>
    obtain rfl := Slot.marker_of_ofMarker? found
    constructor
    · rintro ⟨⟩
      rfl
    · intro same
      cases Slot.marker_injective (congrArg Replacement.key same)
      cases congrArg Replacement.value same
      rfl

theorem ofReplacement_eq_error_iff :
    ofReplacement index r = .error e ↔ r.IsForeign ∧ e = .unknownSlot index r.key := by
  unfold ofReplacement Replacement.IsForeign
  rw [← Slot.ofMarker?_eq_none_iff]
  cases Slot.ofMarker? r.key with
  | none => simp [eq_comm]
  | some slot => simp

theorem ofReplacements_eq_each (index : Nat) (entries : List Replacement) :
    ofReplacements index entries = Attempt.each ofReplacement index entries := by
  induction entries generalizing index with
  | nil => rfl
  | cons entry entries ih => simp only [ofReplacements, Attempt.each, ih]

theorem ofReplacements_eq_ok_iff :
    ofReplacements index entries = .ok cells ↔ entries = cells.map replacement := by
  have fits (index : Nat) (r : Replacement) (cell : Cell) :
      ofReplacement index r = .ok cell ↔ r = cell.replacement := ofReplacement_eq_ok_iff
  rw [ofReplacements_eq_each, Attempt.each_eq_ok_iff fits,
    ← List.forall₂_map_right_iff (R := Eq), List.forall₂_eq_eq_eq]

theorem exists_ofReplacement_eq_error_iff (index : Nat) (r : Replacement) :
    (∃ e, ofReplacement index r = .error e) ↔ r.IsForeign := by
  simp only [ofReplacement_eq_error_iff, exists_eq_right]

theorem exists_ofReplacements_eq_error_iff :
    (∃ e, ofReplacements index entries = .error e) ↔ ∃ r ∈ entries, r.IsForeign := by
  simp only [ofReplacements_eq_each,
    Attempt.exists_each_eq_error_iff exists_ofReplacement_eq_error_iff]

theorem ofReplacements_eq_error_iff :
    ofReplacements index entries = .error e ↔
      ∃ k r, Attempt.First Replacement.IsForeign entries k r ∧
        e = .unknownSlot (index + k) r.key := by
  rw [ofReplacements_eq_each, Attempt.each_eq_error_iff exists_ofReplacement_eq_error_iff]
  simp only [ofReplacement_eq_error_iff]
  constructor
  · rintro ⟨k, r, first, -, he⟩
    exact ⟨k, r, first, he⟩
  · rintro ⟨k, r, first, he⟩
    exact ⟨k, r, first, first.2.1, he⟩

theorem ofChain_eq_ok_iff :
    ofChain s = .ok cells ↔ Chain.read s = .ok (cells.map replacement) := by
  change (Chain.read s >>= ofReplacements 0) = _ ↔ _
  simp only [Attempt.bind_eq_ok_iff, ofReplacements_eq_ok_iff, exists_eq_right]

theorem ofChain_chain (cells : List Cell) : ofChain (chain cells) = .ok cells :=
  ofChain_eq_ok_iff.mpr (Chain.read_text (cells.map replacement))

example : chain [⟨⟨9, 0⟩, ⟨255, 0, 0, 255⟩⟩] = "?replace;10000101=FF0000FF" := by decide

theorem ofChain_of_read_error (h : Chain.read s = .error e) : ofChain s = .error e := by
  rw [ofChain, h]
  rfl

theorem ofChain_of_read_ok (h : Chain.read s = .ok entries) :
    ofChain s = ofReplacements 0 entries := by
  rw [ofChain, h]
  rfl

theorem ofChain_eq_ok_iff_markers :
    (∀ cells, ofChain (chain cells) = .ok cells) ∧
    (∀ s cells, ofChain s = .ok cells ↔ Chain.read s = .ok (cells.map replacement)) ∧
    (∀ s cells, ofChain s = .ok cells →
      ∃ entries, Chain.read s = .ok entries ∧ chain cells = Chain.text entries) ∧
    ∀ slot : Slot,
      (∀ key, Slot.ofMarker? key = some slot ↔ key = slot.marker) ∧
      (∀ key, Slot.ofMarker? key = some slot ↔
        key.green = 0 ∧ key.alpha = 1 ∧ key.blue.toNat = slot.row.val + 1 ∧
          ∃ x, key.red.toNat = x + 1 ∧ Slot.Spaced slot.column.val x) ∧
      slot.marker.red.toNat = slot.column.val + 1 + (if 9 ≤ slot.column.val then 6 else 0) +
        (if 19 ≤ slot.column.val then 6 else 0) + (if 29 ≤ slot.column.val then 6 else 0) ∧
      slot.marker.green = 0 ∧ slot.marker.blue.toNat = slot.row.val + 1 ∧
      slot.marker.alpha = 1 := by
  refine ⟨ofChain_chain, fun s cells => ofChain_eq_ok_iff, fun s cells done => ?_, fun slot => ?_⟩
  · exact ⟨_, ofChain_eq_ok_iff.mp done, rfl⟩
  · refine ⟨fun key => ?_, fun key => Slot.ofMarker?_eq_some_iff_spaced, ?_, rfl,
      Slot.toNat_blue_marker slot, rfl⟩
    · rw [Slot.ofMarker?_eq_some_iff, eq_comm]
    · rw [Slot.toNat_red_marker, Slot.codedDecimal_succ slot.column.isLt]

end Cell

end Recolor
