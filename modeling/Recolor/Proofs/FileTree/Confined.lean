import Recolor.Proofs.FileTree.Store
import Recolor.Proofs.Path.LastPiece

namespace Recolor.FileTree

variable {t : FileTree} {here place : Place} {p q : Path} {bytes : ByteArray}

theorem getLast?_newPlace (h : t.newPlace here p = .ok place) : place.getLast? = p.fileName? := by
  obtain ⟨directory, name, pieces, rfl, -, -, -, something, down, -⟩ := newPlace_eq_ok h
  have named : p.fileName? = some name := by
    have whole : p = ⟨p.rooted, p.pieces.dropLast ++ [name]⟩ := by rw [← pieces]
    rw [whole, Path.fileName?_concat something down]
  rw [named, List.getLast?_concat]

theorem getLast?_of_resolve (h : t.resolve here p = .ok place)
    (there : t.file? place = some bytes) (named : p.fileName? ≠ none) :
    place.getLast? = p.fileName? := by
  have file : t.isDirectoryAt place = false := by
    cases directory : t.isDirectoryAt place with
    | false => rfl
    | true => simp [file?, isDirectoryAt_iff.mp directory] at there
  obtain ⟨rooted, pieces⟩ := p
  rcases List.eq_nil_or_concat pieces with rfl | ⟨front, piece, rfl⟩
  · cases rooted <;> exact absurd rfl named
  · unfold resolve at h
    split at h
    · cases h
    · split at h
      · cases h
      · rw [List.concat_eq_append] at h named ⊢
        obtain ⟨middle, -, step⟩ := walk_concat_iff.mp h
        obtain ⟨directory, ⟨nothing, rfl⟩ | ⟨something, rfl, rfl⟩ | ⟨something, down, -, -, rfl⟩⟩ :=
          step_eq_ok_iff.mp step
        · cases file.symm.trans directory
        -- Two dots are no name.
        · exact absurd (by rw [Path.fileName?, Path.trimmed_concat something]; simp) named
        · rw [Path.fileName?_concat something down, List.getLast?_concat]

namespace Writer

/-- Without links no writing, done or failed, changes a file of another name than the path's, and
nothing that is there goes away. -/
structure IsConfined (write : Writer) : Prop where
  keeps : ∀ t here p bytes, FileTree.Keeps t (write t here p bytes).1
  file : ∀ t here p bytes (place : Place), place.getLast? ≠ p.fileName? →
    (write t here p bytes).1.file? place = t.file? place

theorem isConfined_store : IsConfined FileTree.store := by
  refine ⟨fun t here p bytes => ?_, fun t here p bytes place other => ?_⟩
  · rcases t.store_cases here p bytes with
      ⟨made, grown, stored⟩ | ⟨made, place, grown, hplace, free, stored⟩
    · rw [stored]
      exact grown.keeps
    · rw [stored]
      exact grown.keeps.trans (keeps_put_file (ne_nil_of_newPlace hplace) free)
  · rcases t.store_cases here p bytes with
      ⟨made, grown, stored⟩ | ⟨made, new, grown, hplace, free, stored⟩
    · rw [stored]
      exact grown.file place
    · have differ : place ≠ new := by
        rintro rfl
        exact other (getLast?_newPlace hplace)
      rw [stored, file?_put_file (ne_nil_of_newPlace hplace), if_neg differ, grown.file]

theorem isConfined_makeParents :
    IsConfined fun t here p _ => ((t.makeParents here p).1, false) :=
  ⟨fun t here p _ => (grown_makeParents t here p).keeps,
    fun t here p _ place _ => (grown_makeParents t here p).file place⟩

namespace IsConfined

variable {write : Writer} {content : ByteArray}

theorem file?_of_other_name (confined : write.IsConfined) (found : t.resolve here p = .ok place)
    (there : t.file? place = some content) (named : p.fileName? ≠ none)
    (other : q.fileName? ≠ p.fileName?) :
    (write t here q bytes).1.file? place = t.file? place := by
  have name := getLast?_of_resolve found there named
  exact confined.file t here q bytes place (name ▸ other.symm)

theorem read?_of_other_name (confined : write.IsConfined)
    (there : t.read? here p = some content) (named : p.fileName? ≠ none)
    (other : q.fileName? ≠ p.fileName?) :
    (write t here q bytes).1.read? here p = some content := by
  unfold read? at there ⊢
  cases found : t.resolve here p with
  | error e => simp [found] at there
  | ok place =>
    rw [found] at there
    rw [resolve_of_keeps (confined.keeps t here q bytes) found]
    exact (confined.file?_of_other_name found there named other).trans there

end IsConfined

end Writer

end Recolor.FileTree
