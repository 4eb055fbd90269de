import Recolor.Proofs.Path.LastPiece
import Recolor.Proofs.Path.Name

namespace Recolor.Path

variable {p : Path} {name : String} {stem : Option String}

theorem exists_join (directory : Path) (name : String) :
    ∃ front, directory.join ⟨false, [name]⟩ = ⟨directory.rooted, front ++ [name]⟩ ∧
      (directory.pieces = front ∨ directory.pieces = front ++ [""]) := by
  obtain ⟨rooted, pieces⟩ := directory
  unfold join
  simp only [Bool.false_eq_true, if_false, List.isEmpty_iff, reduceCtorEq]
  split
  · next empty => exact ⟨[], rfl, .inl empty⟩
  · split
    · next last =>
      obtain ⟨front, same⟩ := List.getLast?_eq_some_iff.mp last
      exact ⟨front, by rw [same, List.dropLast_concat], .inr same⟩
    · exact ⟨pieces, rfl, .inl rfl⟩

theorem append_preview_ne (stem : String) (short : name.length < "_preview.png".length) :
    stem ++ "_preview.png" ≠ name := by
  rintro rfl
  rw [String.length_append] at short
  omega

theorem something_preview (stem : String) : namesNothing (stem ++ "_preview.png") = false := by
  have dot : stem ++ "_preview.png" ≠ "." := append_preview_ne stem (by decide)
  simp [namesNothing, dot]

theorem exists_previewIn (directory : Path) (whole : '/' ∉ (stem.getD "output").toList) :
    ∃ front, previewIn directory stem =
        ⟨directory.rooted, front ++ [stem.getD "output" ++ "_preview.png"]⟩ ∧
      (directory.pieces = front ∨ directory.pieces = front ++ [""]) := by
  have name : ofText (stem.getD "output" ++ "_preview.png") =
      ⟨false, [stem.getD "output" ++ "_preview.png"]⟩ := by
    apply ofText_name
    · simp
    · simp [whole]
  unfold previewIn
  rw [name]
  dsimp only
  split
  · next empty =>
    simp only [isEmpty, Bool.and_eq_true, Bool.not_eq_true', List.isEmpty_iff] at empty
    exact ⟨[], by rw [empty.1]; rfl, .inl empty.2⟩
  · exact exists_join directory _

theorem components_previewIn (directory : Path) (whole : '/' ∉ (stem.getD "output").toList) :
    (previewIn directory stem).components =
      directory.components ++ [stem.getD "output" ++ "_preview.png"] := by
  obtain ⟨front, placed, same⟩ := exists_previewIn directory whole
  obtain ⟨rooted, pieces⟩ := directory
  rw [placed, components_concat (something_preview _)]
  rcases same with rfl | rfl
  · rfl
  · rw [components_concat_empty]

theorem parent?_previewIn (directory : Path) (whole : '/' ∉ (stem.getD "output").toList) :
    (previewIn directory stem).parent? = some ⟨directory.rooted, directory.trimmed⟩ := by
  obtain ⟨front, placed, same⟩ := exists_previewIn directory whole
  obtain ⟨rooted, pieces⟩ := directory
  rw [placed, parent?_concat (something_preview _)]
  rcases same with rfl | rfl
  · rfl
  · rw [trimmed_concat_empty]

theorem fileName?_previewIn (directory : Path) (whole : '/' ∉ (stem.getD "output").toList) :
    (previewIn directory stem).fileName? = some (stem.getD "output" ++ "_preview.png") := by
  obtain ⟨front, placed, -⟩ := exists_previewIn directory whole
  rw [placed, fileName?_concat (something_preview _) (append_preview_ne _ (by decide))]

theorem slash_not_mem_stem? (text : String) :
    '/' ∉ ((ofText text).stem?.getD "output").toList := by
  cases named : (ofText text).fileName? with
  | none => simp [stem?, named]
  | some name =>
    obtain ⟨last, -⟩ := Option.filter_eq_some_iff.mp named
    have inside := mem_pieces_of_mem_trimmed (List.mem_of_getLast? last)
    rw [stem?, named]
    exact slash_not_mem_stem (slash_not_mem_of_mem_pieces inside)

theorem append_preview_ne_fileName (h : p.fileName? = some name) :
    p.stem?.getD "output" ++ "_preview.png" ≠ name := by
  rw [stem?, h]
  exact stem_preview_ne name

theorem fileName?_preview_ne (p : Path) (whole : '/' ∉ (p.stem?.getD "output").toList) :
    p.preview.fileName? ≠ p.fileName? := by
  intro same
  rw [preview, fileName?_previewIn _ whole] at same
  exact append_preview_ne_fileName same.symm rfl

theorem append_preview_ne_last (h : p.trimmed.getLast? = some name) :
    p.stem?.getD "output" ++ "_preview.png" ≠ name := by
  by_cases dots : name = "." ∨ name = ".."
  · rcases dots with rfl | rfl <;> exact append_preview_ne _ (by decide)
  · have named : p.fileName? = some name := by simpa [fileName?, h] using dots
    exact append_preview_ne_fileName named

theorem components_preview_ne (p : Path) (whole : '/' ∉ (p.stem?.getD "output").toList) :
    p.preview.components ≠ p.components := by
  rw [preview, components_previewIn _ whole]
  cases above : p.parent? with
  | none =>
    change [p.stem?.getD "output" ++ "_preview.png"] ≠ p.components
    rcases components_of_top above with empty | root
    · rw [empty]
      exact List.cons_ne_nil _ _
    · rw [root]
      exact fun same => append_preview_ne _ (by decide) (List.singleton_inj.mp same)
  | some parent =>
    obtain ⟨last, ends, components⟩ := components_of_parent above
    rw [components]
    exact fun same => append_preview_ne_last ends
      (List.singleton_inj.mp (List.append_cancel_left same))

theorem exists_parent_preview (h : p.fileName? = some name)
    (whole : '/' ∉ (p.stem?.getD "output").toList) :
    ∃ parent, p.parent? = some parent ∧ p.components = parent.components ++ [name] ∧
      p.preview.parent? = some parent ∧
      p.preview.components = parent.components ++ [(splitName name).1 ++ "_preview.png"] := by
  obtain ⟨parent, above, components⟩ := components_of_fileName? h
  have stem : p.stem? = some (splitName name).1 := by rw [stem?, h, Option.map_some]
  rw [stem] at whole
  have made : p.preview = previewIn parent (some (splitName name).1) := by
    rw [preview, above, stem, Option.getD_some]
  refine ⟨parent, above, components, ?_, ?_⟩
  · rw [made, parent?_previewIn _ whole, trimmed_of_parent above]
  · rw [made, components_previewIn _ whole, Option.getD_some]

example : (ofText "a/..").preview = ofText "a/output_preview.png" := by decide +kernel

end Recolor.Path
