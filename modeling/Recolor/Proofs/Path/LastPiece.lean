import Recolor.Proofs.Path.Ancestors

namespace Recolor.Path

variable {p q : Path} {rooted : Bool} {pieces front : List String} {name piece : String}

theorem dotted_or_plain (rooted : Bool) (front : List String) :
    (∃ pieces, rooted = false ∧ front = "." :: pieces) ∨
      startsDotted ⟨rooted, front⟩ = false ∧
        ∀ piece ≠ ".", startsDotted ⟨rooted, front ++ [piece]⟩ = false := by
  cases dotted : startsDotted ⟨rooted, front⟩ with
  | true =>
    obtain ⟨pieces, here⟩ := exists_of_startsDotted dotted
    cases here
    exact .inl ⟨pieces, rfl, rfl⟩
  | false =>
    refine .inr ⟨rfl, fun piece other => ?_⟩
    cases front with
    | nil => simp [startsDotted, other]
    | cons first rest => exact dotted

theorem ne_dot_of_something (something : namesNothing name = false) : name ≠ "." := by
  rintro rfl
  cases something

theorem trimmed_concat (something : namesNothing name = false) :
    trimmed ⟨rooted, front ++ [name]⟩ = front ++ [name] := by
  have kept (pieces : List String) : dropTrailing (pieces ++ [name]) = pieces ++ [name] :=
    List.rdropWhile_concat_neg _ _ _ (by simp [something])
  rcases dotted_or_plain rooted front with ⟨pieces, rfl, rfl⟩ | ⟨-, plain⟩
  · exact congrArg ("." :: ·) (kept pieces)
  · rw [trimmed_of_plain (plain _ (ne_dot_of_something something)), kept]

theorem trimmed_concat_empty : trimmed ⟨rooted, front ++ [""]⟩ = trimmed ⟨rooted, front⟩ := by
  have dropped (pieces : List String) : dropTrailing (pieces ++ [""]) = dropTrailing pieces :=
    List.rdropWhile_concat_pos _ _ _ rfl
  rcases dotted_or_plain rooted front with ⟨pieces, rfl, rfl⟩ | ⟨before, plain⟩
  · exact congrArg ("." :: ·) (dropped pieces)
  · rw [trimmed_of_plain (plain _ (by decide)), dropped, trimmed_of_plain before]

theorem components_concat (something : namesNothing name = false) :
    components ⟨rooted, front ++ [name]⟩ = components ⟨rooted, front⟩ ++ [name] := by
  have added (pieces : List String) : named (pieces ++ [name]) = named pieces ++ [name] := by
    simp [named, something]
  rcases dotted_or_plain rooted front with ⟨pieces, rfl, rfl⟩ | ⟨before, plain⟩
  · exact congrArg ("." :: ·) (added pieces)
  · rw [components_of_plain (plain _ (ne_dot_of_something something)), added,
      components_of_plain before, List.append_assoc]

theorem components_concat_empty :
    components ⟨rooted, front ++ [""]⟩ = components ⟨rooted, front⟩ := by
  have same (pieces : List String) : named (pieces ++ [""]) = named pieces := by
    simp [named, namesNothing]
  rcases dotted_or_plain rooted front with ⟨pieces, rfl, rfl⟩ | ⟨before, plain⟩
  · exact congrArg ("." :: ·) (same pieces)
  · rw [components_of_plain (plain _ (by decide)), same, components_of_plain before]

theorem fileName?_concat (something : namesNothing name = false) (down : name ≠ "..") :
    fileName? ⟨rooted, front ++ [name]⟩ = some name := by
  rw [fileName?, trimmed_concat something, List.getLast?_concat]
  simp [ne_dot_of_something something, down]

theorem parent?_concat (something : namesNothing name = false) :
    parent? ⟨rooted, front ++ [name]⟩ = some ⟨rooted, trimmed ⟨rooted, front⟩⟩ := by
  rw [parent?, trimmed_concat something, List.dropLast_concat]
  simp

theorem trimmed_trimmed (p : Path) : trimmed ⟨p.rooted, p.trimmed⟩ = p.trimmed := by
  have again (pieces : List String) : dropTrailing (dropTrailing pieces) = dropTrailing pieces :=
    List.rdropWhile_idempotent _ _
  obtain ⟨rooted, pieces⟩ := p
  rcases dotted_or_plain rooted pieces with ⟨rest, rfl, rfl⟩ | ⟨plain, -⟩
  · exact congrArg ("." :: ·) (again rest)
  · have before : dropTrailing pieces <+: pieces := List.rdropWhile_prefix _ _
    rw [trimmed_of_plain plain, trimmed_of_plain (startsDotted_front before plain), again]

theorem trimmed_of_parent (h : p.parent? = some q) : q.trimmed = q.pieces := by
  unfold parent? at h
  split at h
  · cases h
  · cases h
    exact trimmed_trimmed ⟨p.rooted, p.trimmed.dropLast⟩

theorem components_of_top (h : p.parent? = none) : p.components = [] ∨ p.components = ["/"] := by
  have empty : p.trimmed = [] := by simpa [parent?] using h
  obtain ⟨rooted, pieces⟩ := p
  rcases dotted_or_plain rooted pieces with ⟨rest, rfl, rfl⟩ | ⟨plain, -⟩
  · cases empty
  · rw [trimmed_of_plain plain] at empty
    rw [components_of_plain plain, ← named_dropTrailing, empty]
    cases rooted with
    | true => exact .inr rfl
    | false => exact .inl rfl

theorem components_of_fileName? (h : p.fileName? = some name) :
    ∃ parent, p.parent? = some parent ∧ p.components = parent.components ++ [name] := by
  obtain ⟨last, -⟩ := Option.filter_eq_some_iff.mp h
  cases above : p.parent? with
  | none =>
    have empty : p.trimmed = [] := by simpa [parent?] using above
    simp [empty] at last
  | some parent =>
    obtain ⟨_, last', components⟩ := components_of_parent above
    cases last.symm.trans last'
    exact ⟨parent, rfl, components⟩

theorem mem_pieces_of_mem_trimmed (h : piece ∈ p.trimmed) : piece ∈ p.pieces := by
  have before (pieces : List String) : dropTrailing pieces <+: pieces := List.rdropWhile_prefix _ _
  unfold trimmed at h
  split at h
  · exact (List.prefix_cons_inj _).mpr (before _) |>.subset h
  · exact (before _).subset h

end Recolor.Path
