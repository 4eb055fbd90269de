import Mathlib.Data.List.TakeWhile
import Recolor.Proofs.Attempt.Each
import Recolor.Proofs.Chain.RoundTrip

namespace Recolor.Chain

inductive Spells : List Char → List Replacement → Prop where
  | nil : Spells [] []
  | cons {key value rest : List Char} {entry : Replacement} {entries : List Replacement}
      (keyEnds : ';' ∉ key ∧ '=' ∉ key) (valueEnds : ';' ∉ value)
      (hk : Color.ofChars key = .ok entry.key) (hv : Color.ofChars value = .ok entry.value)
      (hr : Spells rest entries) :
      Spells (';' :: (key ++ '=' :: value) ++ rest) (entry :: entries)

def Names (piece : List Char) (entry : Replacement) : Prop :=
  ∃ key value, piece = key ++ '=' :: value ∧ '=' ∉ key ∧
    Color.ofChars key = .ok entry.key ∧ Color.ofChars value = .ok entry.value

theorem cut_eq_none_iff {separator : Char} {cs : List Char} :
    cut separator cs = none ↔ separator ∉ cs := by
  constructor
  · intro none there
    obtain ⟨left, right, rfl, first⟩ := List.eq_append_cons_of_mem there
    cases none.symm.trans (cut_append first)
  · intro absent
    have all : ∀ c ∈ cs, (c != separator) = true := fun c hc => by
      simpa using fun same : c = separator => absent (same ▸ hc)
    rw [cut, List.span_eq_takeWhile_dropWhile, List.dropWhile_eq_nil_iff.mpr all]

theorem cut_eq_some_iff {separator : Char} {cs left right : List Char} :
    cut separator cs = some (left, right) ↔
      cs = left ++ separator :: right ∧ separator ∉ left := by
  constructor
  · intro found
    have there : separator ∈ cs := by
      by_contra absent
      cases found.symm.trans (cut_eq_none_iff.mpr absent)
    obtain ⟨before, after, rfl, first⟩ := List.eq_append_cons_of_mem there
    cases found.symm.trans (cut_append first)
    exact ⟨rfl, first⟩
  · rintro ⟨rfl, first⟩
    exact cut_append first

theorem readGroup_eq_ok_iff {index : Nat} {piece : List Char} {entry : Replacement} :
    readGroup index piece = .ok entry ↔ Names piece entry := by
  unfold readGroup Names
  cases found : cut '=' piece with
  | none =>
    refine ⟨nofun, ?_⟩
    rintro ⟨key, value, hpiece, first, -⟩
    cases found.symm.trans (cut_eq_some_iff.mpr ⟨hpiece, first⟩)
  | some parts =>
    obtain ⟨left, right⟩ := parts
    obtain ⟨rfl, first⟩ := cut_eq_some_iff.mp found
    simp only [readColor, Attempt.bind_eq_ok_iff, Attempt.mapError_eq_ok_iff]
    constructor
    · rintro ⟨key, hk, value, hv, ⟨⟩⟩
      exact ⟨left, right, rfl, first, hk, hv⟩
    · rintro ⟨key, value, hpiece, first', hk, hv⟩
      cases found.symm.trans (cut_eq_some_iff.mpr ⟨hpiece, first'⟩)
      exact ⟨_, hk, _, hv, rfl⟩

theorem readGroups_eq_each (index : Nat) (pieces : List (List Char)) :
    readGroups index pieces = Attempt.each readGroup index pieces := by
  induction pieces generalizing index with
  | nil => rfl
  | cons piece pieces ih => simp only [readGroups, Attempt.each, ih]

theorem readGroups_eq_ok_iff {index : Nat} {pieces : List (List Char)}
    {entries : List Replacement} :
    readGroups index pieces = .ok entries ↔ List.Forall₂ Names pieces entries := by
  have fits (index : Nat) (piece : List Char) (entry : Replacement) :
      readGroup index piece = .ok entry ↔ Names piece entry := readGroup_eq_ok_iff
  rw [readGroups_eq_each, Attempt.each_eq_ok_iff fits]

theorem read_of_not_operator {s : String} (h : ¬ operator.toList <+: s.toList) :
    read s = .error .missingOperator := by
  rw [read, if_neg fun begins => h (List.isPrefixOf_iff_prefix.mp begins)]

theorem exists_first (cs : List Char) :
    ∃ first, cs = first ++ (pieces cs).flatMap (';' :: ·) ∧ ';' ∉ first ∧
      ∀ piece ∈ pieces cs, ';' ∉ piece := by
  by_cases there : ';' ∈ cs
  · obtain ⟨first, rest, rfl, absent⟩ := List.eq_append_cons_of_mem there
    obtain ⟨next, hrest, hnext, each⟩ := exists_first rest
    have split : pieces (first ++ ';' :: rest) = next :: pieces rest := by
      have : first ++ ';' :: rest = first ++ (next :: pieces rest).flatMap (';' :: ·) := by
        rw [List.flatMap_cons, List.cons_append, ← hrest]
      rw [this, pieces_flatMap absent (List.forall_mem_cons.mpr ⟨hnext, each⟩)]
    refine ⟨first, ?_, absent, split ▸ List.forall_mem_cons.mpr ⟨hnext, each⟩⟩
    rw [split, List.flatMap_cons, List.cons_append, ← hrest]
  · refine ⟨cs, ?_, there, ?_⟩ <;> simp [pieces, List.splitOn_eq_singleton there]
termination_by cs.length
decreasing_by simp [*]; omega

theorem spells_iff {groups : List Char} {entries : List Replacement} :
    Spells groups entries ↔ ∃ bodies, groups = bodies.flatMap (';' :: ·) ∧
      (∀ body ∈ bodies, ';' ∉ body) ∧ List.Forall₂ Names bodies entries := by
  constructor
  · intro h
    induction h with
    | nil => exact ⟨[], rfl, nofun, .nil⟩
    | @cons key value rest entry entries keyEnds valueEnds hk hv _ ih =>
      obtain ⟨bodies, rfl, each, names⟩ := ih
      have body : ';' ∉ key ++ '=' :: value := by simp [keyEnds.1, valueEnds]
      exact ⟨(key ++ '=' :: value) :: bodies, rfl, List.forall_mem_cons.mpr ⟨body, each⟩,
        .cons ⟨key, value, rfl, keyEnds.2, hk, hv⟩ names⟩
  · rintro ⟨bodies, rfl, each, names⟩
    induction names with
    | nil => exact .nil
    | @cons body entry bodies entries named _ ih =>
      obtain ⟨ends, rest⟩ := List.forall_mem_cons.mp each
      obtain ⟨key, value, rfl, equals, hk, hv⟩ := named
      simp only [List.mem_append, List.mem_cons, not_or] at ends
      exact .cons ⟨ends.1, equals⟩ ends.2.2 hk hv (ih rest)

theorem Spells.head? {groups : List Char} {entries : List Replacement} (h : Spells groups entries) :
    ∀ c ∈ groups.head?, c = ';' := by
  cases h with
  | nil => nofun
  | cons => simp

theorem read_eq_ok_iff {s : String} {entries : List Replacement} :
    read s = .ok entries ↔ ∃ skipped groups,
      s.toList = operator.toList ++ skipped ++ groups ∧ ';' ∉ skipped ∧ Spells groups entries := by
  constructor
  · intro done
    have begins : operator.toList <+: s.toList := by
      by_contra missing
      cases (read_of_not_operator missing).symm.trans done
    obtain ⟨rest, hs⟩ := begins
    rw [read_of_operator hs.symm, readGroups_eq_ok_iff] at done
    obtain ⟨skipped, hrest, absent, each⟩ := exists_first rest
    refine ⟨skipped, _, ?_, absent, spells_iff.mpr ⟨_, rfl, each, done⟩⟩
    rw [List.append_assoc, ← hrest, hs]
  · rintro ⟨skipped, groups, hs, absent, spells⟩
    obtain ⟨bodies, rfl, each, names⟩ := spells_iff.mp spells
    rw [List.append_assoc] at hs
    rw [read_of_operator hs, pieces_flatMap absent each, readGroups_eq_ok_iff]
    exact names

theorem read_eq_ok_iff_spells (s : String) (entries : List Replacement) :
    (read s = .ok entries ↔ ∃ skipped groups,
      s.toList = operator.toList ++ skipped ++ groups ∧ ';' ∉ skipped ∧ Spells groups entries) ∧
    ((∃ groups, s.toList = operator.toList ++ groups ∧ Spells groups entries) ↔
      read s = .ok entries ∧ ∀ c ∈ (s.toList.drop operator.toList.length).head?, c = ';') := by
  refine ⟨read_eq_ok_iff, ?_⟩
  rw [read_eq_ok_iff]
  constructor
  · rintro ⟨groups, hs, spells⟩
    refine ⟨⟨[], groups, by rw [List.append_nil, hs], List.not_mem_nil, spells⟩, ?_⟩
    rw [hs, List.drop_left]
    exact spells.head?
  · rintro ⟨⟨skipped, groups, hs, absent, spells⟩, follows⟩
    rw [hs, List.append_assoc, List.drop_left] at follows
    cases skipped with
    | nil => exact ⟨groups, by rw [hs, List.append_nil], spells⟩
    | cons c skipped =>
      obtain rfl : c = ';' := follows c rfl
      exact absurd List.mem_cons_self absent

theorem read_of_foreign_operator :
    read "?replacement;01000101=FF0000FF" = .ok [⟨⟨1, 0, 1, 1⟩, ⟨255, 0, 0, 255⟩⟩] ∧
      ¬ ∃ groups entries, "?replacement;01000101=FF0000FF".toList = operator.toList ++ groups ∧
        Spells groups entries := by
  refine ⟨by decide +kernel, ?_⟩
  rintro ⟨groups, entries, hs, spells⟩
  have rest : groups = "ment;01000101=FF0000FF".toList := by
    have split : operator.toList ++ "ment;01000101=FF0000FF".toList =
        operator.toList ++ groups := hs
    exact (List.append_cancel_left split).symm
  exact absurd (spells.head? 'm' (rest ▸ rfl)) (by decide)

end Recolor.Chain
