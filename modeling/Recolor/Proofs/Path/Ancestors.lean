import Mathlib.Data.List.DropRight
import Recolor.Path

namespace Recolor.Path

variable {p q : Path} {rooted : Bool} {pieces front : List String}

def named (pieces : List String) : List String := pieces.filter fun piece => !namesNothing piece

def components : Path → List String
  | ⟨false, "." :: pieces⟩ => "." :: named pieces
  | ⟨rooted, pieces⟩ => (if rooted then ["/"] else []) ++ named pieces

def ancestor? (p : Path) : Nat → Option Path
  | 0 => some p
  | k + 1 => (p.ancestor? k).bind parent?

def startsDotted : Path → Bool
  | ⟨rooted, pieces⟩ => !rooted && pieces.head? == some "."

theorem dropTrailing_cases (pieces : List String) :
    dropTrailing pieces = [] ∧ named pieces = [] ∨
      ∃ front last, dropTrailing pieces = front ++ [last] ∧ front <+: pieces ∧
        namesNothing last = false ∧ named pieces = named front ++ [last] := by
  change List.rdropWhile namesNothing pieces = [] ∧ _ ∨
    ∃ front last, List.rdropWhile namesNothing pieces = front ++ [last] ∧ _
  induction pieces using List.reverseRecOn with
  | nil => exact .inl ⟨rfl, rfl⟩
  | append_singleton pieces piece ih =>
    cases nothing : namesNothing piece with
    | true =>
      have same : named (pieces ++ [piece]) = named pieces := by simp [named, nothing]
      rw [List.rdropWhile_concat_pos _ _ _ nothing, same]
      refine ih.imp_right ?_
      rintro ⟨front, last, kept, before, something, names⟩
      exact ⟨front, last, kept, before.trans (List.prefix_append ..), something, names⟩
    | false =>
      rw [List.rdropWhile_concat_neg _ _ _ (by simp [nothing])]
      exact .inr ⟨pieces, piece, rfl, List.prefix_append .., nothing, by simp [named, nothing]⟩

theorem named_dropTrailing (pieces : List String) : named (dropTrailing pieces) = named pieces := by
  rcases dropTrailing_cases pieces with ⟨nothing, names⟩ | ⟨front, last, kept, -, something, names⟩
  · rw [nothing, names]
    rfl
  · rw [kept, names]
    simp [named, something]

theorem startsDotted_front (h : front <+: pieces)
    (plain : startsDotted ⟨rooted, pieces⟩ = false) : startsDotted ⟨rooted, front⟩ = false := by
  cases front with
  | nil => simp [startsDotted]
  | cons piece front =>
    obtain ⟨rest, rfl⟩ := h
    exact plain

theorem exists_of_startsDotted (h : p.startsDotted = true) :
    ∃ pieces, p = ⟨false, "." :: pieces⟩ := by
  obtain ⟨rooted, pieces⟩ := p
  simp only [startsDotted, Bool.and_eq_true, Bool.not_eq_true', beq_iff_eq] at h
  obtain ⟨rfl, first⟩ := h
  obtain ⟨rest, rfl⟩ := List.head?_eq_some_iff.mp first
  exact ⟨rest, rfl⟩

theorem trimmed_of_plain (h : startsDotted ⟨rooted, pieces⟩ = false) :
    trimmed ⟨rooted, pieces⟩ = dropTrailing pieces := by
  unfold trimmed
  split
  · next same =>
    cases same
    simp [startsDotted] at h
  · next same => cases same; rfl

theorem components_of_plain (h : startsDotted ⟨rooted, pieces⟩ = false) :
    components ⟨rooted, pieces⟩ = (if rooted then ["/"] else []) ++ named pieces := by
  unfold components
  split
  · next same =>
    cases same
    simp [startsDotted] at h
  · next same => cases same; rfl

theorem components_trimmed (h : startsDotted ⟨rooted, front⟩ = false) :
    components ⟨rooted, trimmed ⟨rooted, front⟩⟩ =
      (if rooted then ["/"] else []) ++ named front := by
  have before : dropTrailing front <+: front := List.rdropWhile_prefix _ _
  rw [trimmed_of_plain h, components_of_plain (startsDotted_front before h),
    named_dropTrailing]

theorem components_of_parent (h : p.parent? = some q) :
    ∃ last, p.trimmed.getLast? = some last ∧ p.components = q.components ++ [last] := by
  unfold parent? at h
  split at h
  · cases h
  · next nonempty =>
    cases h
    cases dotted : p.startsDotted with
    | true =>
      obtain ⟨pieces, rfl⟩ := exists_of_startsDotted dotted
      change ∃ last, ("." :: dropTrailing pieces).getLast? = some last ∧ "." :: named pieces =
        components ⟨false, trimmed ⟨false, ("." :: dropTrailing pieces).dropLast⟩⟩ ++ [last]
      rcases dropTrailing_cases pieces with ⟨nothing, names⟩ | ⟨front, last, kept, -, -, names⟩
      · rw [nothing, names]
        exact ⟨".", rfl, rfl⟩
      · rw [kept, names, ← List.cons_append, List.dropLast_concat, ← named_dropTrailing front]
        exact ⟨last, List.getLast?_concat, rfl⟩
    | false =>
      obtain ⟨rooted, pieces⟩ := p
      rw [components_of_plain dotted]
      rcases dropTrailing_cases pieces with ⟨nothing, -⟩ | ⟨front, last, kept, before, -, names⟩
      · exact absurd (by rw [trimmed_of_plain dotted, nothing]; rfl) nonempty
      · have plain := startsDotted_front before dotted
        rw [trimmed_of_plain dotted, kept, List.dropLast_concat, components_trimmed plain, names]
        exact ⟨last, List.getLast?_concat, (List.append_assoc ..).symm⟩

theorem ancestor?_succ (p : Path) (k : Nat) :
    p.ancestor? (k + 1) = p.parent?.bind fun q => q.ancestor? k := by
  induction k with
  | zero => exact (Option.bind_fun_some p.parent?).symm
  | succ k ih =>
    rw [ancestor?, ih, Option.bind_assoc]
    rfl

theorem ancestors_of_parent (h : p.parent? = some q) : p.ancestors = p :: q.ancestors := by
  rw [ancestors]
  split
  · next last => cases h.symm.trans last
  · next above =>
    cases h.symm.trans above
    rfl

theorem ancestors_of_last (h : p.parent? = none) : p.ancestors = [p] := by
  rw [ancestors]
  split
  · rfl
  · next above => cases h.symm.trans above

theorem getElem?_ancestors (p : Path) (k : Nat) : p.ancestors[k]? = p.ancestor? k := by
  induction p using ancestors.induct generalizing k with
  | case1 p last =>
    rw [ancestors_of_last last]
    cases k with
    | zero => rfl
    | succ k => rw [ancestor?_succ, last]; rfl
  | case2 p q above ih =>
    rw [ancestors_of_parent above]
    cases k with
    | zero => rfl
    | succ k => rw [ancestor?_succ, above, List.getElem?_cons_succ, ih, Option.bind_some]

theorem length_ancestors_le (p : Path) : p.ancestors.length ≤ p.components.length + 1 := by
  induction p using ancestors.induct with
  | case1 p last =>
    rw [ancestors_of_last last]
    exact Nat.succ_le_succ (Nat.zero_le _)
  | case2 p q above ih =>
    obtain ⟨last, -, components⟩ := components_of_parent above
    rw [ancestors_of_parent above, components, List.length_cons, List.length_append]
    exact Nat.succ_le_succ ih

end Recolor.Path
