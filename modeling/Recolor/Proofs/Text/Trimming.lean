import Recolor.Text.Blank

namespace Recolor.Text

variable {cs inner before : List Char}

structure Trimmed (cs inner : List Char) : Prop where
  around : ∃ before after, cs = before ++ inner ++ after ∧
    (∀ c ∈ before, isBlank c = true) ∧ ∀ c ∈ after, isBlank c = true
  first : ∀ c ∈ inner.head?, isBlank c = false
  last : ∀ c ∈ inner.getLast?, isBlank c = false

theorem dropBlanks_append (h : ∀ c ∈ before, isBlank c = true) (cs : List Char) :
    dropBlanks (before ++ cs) = dropBlanks cs := List.dropWhile_append_of_pos h

theorem dropBlanks_eq_self (h : ∀ c ∈ cs.head?, isBlank c = false) : dropBlanks cs = cs := by
  cases cs with
  | nil => rfl
  | cons c cs => exact List.dropWhile_cons_of_neg (by simp [h c rfl])

theorem exists_dropBlanks (cs : List Char) :
    ∃ before, cs = before ++ dropBlanks cs ∧ ∀ c ∈ before, isBlank c = true :=
  ⟨cs.takeWhile isBlank, List.takeWhile_append_dropWhile.symm,
    List.all_eq_true.mp List.all_takeWhile⟩

theorem isBlank_head_dropBlanks (cs : List Char) :
    ∀ c ∈ (dropBlanks cs).head?, isBlank c = false := by
  intro c hc
  have head := List.head?_dropWhile_not isBlank cs
  rw [show (cs.dropWhile isBlank).head? = some c from hc] at head
  exact head

theorem trimmed_trim (cs : List Char) : Trimmed cs (trim cs) := by
  obtain ⟨before, hcs, blank⟩ := exists_dropBlanks cs
  obtain ⟨after, hrest, blank'⟩ := exists_dropBlanks (dropBlanks cs).reverse
  have rest : dropBlanks cs = trim cs ++ after.reverse := by
    rw [trim, ← List.reverse_append, ← hrest, List.reverse_reverse]
  refine ⟨⟨before, after.reverse, ?_, blank, by simpa using blank'⟩, fun c hc => ?_, ?_⟩
  · rw [List.append_assoc, ← rest, ← hcs]
  · apply isBlank_head_dropBlanks cs c
    rw [rest, List.head?_append, hc]
    rfl
  · rw [trim, List.getLast?_reverse]
    exact isBlank_head_dropBlanks _

theorem Trimmed.trim_eq (h : Trimmed cs inner) : trim cs = inner := by
  obtain ⟨⟨before, after, rfl, blank, blank'⟩, first, last⟩ := h
  rw [trim, List.append_assoc, dropBlanks_append blank]
  cases inner with
  | nil =>
    have nothing : dropBlanks after = [] := by
      rw [← List.append_nil after, dropBlanks_append blank']
      rfl
    rw [List.nil_append, nothing]
    rfl
  | cons c inner =>
    have keeps : dropBlanks (c :: inner ++ after) = c :: inner ++ after :=
      dropBlanks_eq_self (by simpa using first)
    rw [keeps, List.reverse_append, dropBlanks_append (by simpa using blank'),
      dropBlanks_eq_self (by rwa [List.head?_reverse]), List.reverse_reverse]

theorem trim_eq_iff : trim cs = inner ↔ Trimmed cs inner :=
  ⟨fun h => h ▸ trimmed_trim cs, Trimmed.trim_eq⟩

theorem trim_trim (cs : List Char) : trim (trim cs) = trim cs := by
  obtain ⟨-, first, last⟩ := trimmed_trim cs
  exact trim_eq_iff.mpr ⟨⟨[], [], by simp, nofun, nofun⟩, first, last⟩

end Recolor.Text
