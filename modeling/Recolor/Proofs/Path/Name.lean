import Recolor.Path
import Recolor.Proofs.Text.Separator

namespace Recolor.Path

variable {text name piece : String}

theorem slash_not_mem_of_mem_split {cs : List Char} (h : piece ∈ split cs) :
    '/' ∉ piece.toList := by
  unfold split at h
  split at h
  · cases h
  · obtain ⟨part, hpart, rfl⟩ := List.mem_map.mp h
    rw [String.toList_ofList]
    exact Text.not_mem_of_mem_splitOn hpart

theorem slash_not_mem_of_mem_pieces (h : piece ∈ (ofText text).pieces) : '/' ∉ piece.toList := by
  unfold ofText at h
  split at h
  · exact slash_not_mem_of_mem_split h
  · exact slash_not_mem_of_mem_split h

theorem ofText_name (nonempty : name ≠ "") (whole : '/' ∉ name.toList) :
    ofText name = ⟨false, [name]⟩ := by
  unfold ofText
  split
  · next cs hcs => exact absurd (hcs ▸ List.mem_cons_self) whole
  · have some : name.toList.isEmpty = false := by simpa using nonempty
    rw [split, some, List.splitOn_eq_singleton whole]
    simp

theorem splitName_cases (name : String) :
    (splitName name).1 = name ∨ ∃ ending, name = (splitName name).1 ++ "." ++ ending := by
  unfold splitName
  dsimp only
  split
  · exact .inl rfl
  · exact .inl rfl
  · next after mark before _ cut =>
    obtain ⟨rfl, whole⟩ := Text.append_of_span_separator cut
    refine .inr ⟨String.ofList after.reverse, ?_⟩
    rw [← String.toList_inj]
    simpa using congrArg List.reverse whole

theorem splitName_append {ending : String} (nonempty : name ≠ "") (dotless : '.' ∉ ending.toList) :
    splitName (name ++ "." ++ ending) = (name, some ending) := by
  obtain ⟨last, before, hbefore⟩ : ∃ last before, name.toList.reverse = last :: before :=
    List.exists_cons_of_ne_nil (by simpa using nonempty)
  have backward : (name ++ "." ++ ending).toList.reverse =
      ending.toList.reverse ++ '.' :: last :: before := by simp [← hbefore]
  have stem : String.ofList (last :: before).reverse = name := by simp [← hbefore]
  have absent : '.' ∉ ending.toList.reverse := by simpa using dotless
  unfold splitName
  dsimp only
  rw [backward, Text.span_separator absent]
  change (String.ofList (last :: before).reverse,
    some (String.ofList ending.toList.reverse.reverse)) = (name, some ending)
  rw [stem, List.reverse_reverse, String.ofList_toList]

theorem stem_preview_ne (name : String) : (splitName name).1 ++ "_preview.png" ≠ name := by
  intro same
  rcases splitName_cases name with whole | ⟨ending, split⟩
  · rw [whole] at same
    simpa using congrArg String.length same
  · have parts := same.trans split
    rw [String.append_assoc, String.append_right_inj] at parts
    have first := congrArg (·.toList.head?) parts
    simp at first

theorem slash_not_mem_stem (h : '/' ∉ name.toList) : '/' ∉ (splitName name).1.toList := by
  rcases splitName_cases name with whole | ⟨ending, split⟩
  · rwa [whole]
  · intro there
    rw [split] at h
    simp [there] at h

end Recolor.Path
