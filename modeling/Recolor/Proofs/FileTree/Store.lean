import Recolor.FileTree
import Recolor.Proofs.Attempt

namespace Recolor.FileTree

variable {t made : FileTree} {here place : Place} {node : Node} {p : Path} {bytes : ByteArray}

theorem lookup_filter_ne (nodes : List (Place × Node)) {place other : Place} (h : other ≠ place) :
    (nodes.filter fun entry => entry.1 != place).lookup other = nodes.lookup other := by
  induction nodes with
  | nil => rfl
  | cons entry nodes ih =>
    obtain ⟨first, node⟩ := entry
    by_cases hfirst : first = place
    · have skipped : (other == first) = false := by simpa [hfirst] using h
      simp [hfirst, ih, List.lookup_cons, hfirst ▸ skipped]
    · simp [hfirst, List.lookup_cons, ih]

theorem node?_put (h : place ≠ []) (other : Place) :
    (t.put place node).node? other = if other = place then some node else t.node? other := by
  unfold node?
  by_cases root : other = []
  · simp [root, Ne.symm h]
  · by_cases same : other = place
    · simp [same, h, put]
    · simp only [put, List.isEmpty_iff, root, if_false, same, List.lookup_cons,
        lookup_filter_ne _ same]
      have differ : (other == place) = false := by simpa using same
      simp [differ]

theorem file?_put_file (h : place ≠ []) (other : Place) :
    (t.put place (.file bytes)).file? other =
      if other = place then some bytes else t.file? other := by
  rw [file?, node?_put h]
  by_cases same : other = place
  · simp [same]
  · simp [same, file?]

structure Grown (t made : FileTree) : Prop where
  node : ∀ place node, t.node? place = some node → made.node? place = some node
  file : ∀ place, made.file? place = t.file? place

theorem Grown.refl (t : FileTree) : t.Grown t := ⟨fun _ _ there => there, fun _ => rfl⟩

theorem Grown.trans {later : FileTree} (h : t.Grown made) (h' : made.Grown later) :
    t.Grown later :=
  ⟨fun place node there => h'.node place node (h.node place node there),
    fun place => (h'.file place).trans (h.file place)⟩

theorem grown_put_directory (h : t.node? place = none) : t.Grown (t.put place .directory) := by
  have hplace : place ≠ [] := by
    rintro rfl
    simp [node?] at h
  refine ⟨fun other node there => ?_, fun other => ?_⟩
  · have differ : other ≠ place := by
      rintro rfl
      cases h.symm.trans there
    rwa [node?_put hplace, if_neg differ]
  · rw [file?, file?, node?_put hplace]
    by_cases same : other = place
    · simp [same, h]
    · simp [same]

theorem grown_makeDirectory (h : t.makeDirectory here p = .ok made) : t.Grown made := by
  unfold makeDirectory at h
  split at h
  · cases h
  · obtain ⟨place, -, h⟩ := Attempt.bind_eq_ok_iff.mp h
    split at h
    · cases h
    · next new =>
      cases h
      exact grown_put_directory (by simpa using new)

theorem grown_makeDirectories (here : Place) (ps : List Path) (t : FileTree) :
    t.Grown (makeDirectories here ps t).1 := by
  induction ps generalizing t with
  | nil => exact .refl t
  | cons p parents ih =>
    unfold makeDirectories
    split
    · exact .refl t
    · split
      · next made h => exact grown_makeDirectory h
      · have above := ih t
        split
        · next t' hparents => rwa [hparents] at above
        · next t' hparents =>
          rw [hparents] at above
          split
          · next made h => exact above.trans (grown_makeDirectory h)
          · exact above
      · exact .refl t

theorem grown_makeParents (t : FileTree) (here : Place) (p : Path) :
    t.Grown (t.makeParents here p).1 := by
  unfold makeParents
  split
  · exact .refl t
  · split
    · exact .refl t
    · exact grown_makeDirectories here _ t

structure Keeps (t made : FileTree) : Prop where
  directory : ∀ place, t.isDirectoryAt place = true → made.isDirectoryAt place = true
  node : ∀ place, (t.node? place).isSome = true → (made.node? place).isSome = true

theorem Keeps.trans {later : FileTree} (h : t.Keeps made) (h' : made.Keeps later) :
    t.Keeps later :=
  ⟨fun place there => h'.directory place (h.directory place there),
    fun place there => h'.node place (h.node place there)⟩

theorem isDirectoryAt_iff : t.isDirectoryAt place = true ↔ t.node? place = some .directory := by
  unfold isDirectoryAt
  split <;> simp_all

theorem Grown.keeps (h : t.Grown made) : t.Keeps made := by
  refine ⟨fun place there => ?_, fun place there => ?_⟩
  · exact isDirectoryAt_iff.mpr (h.node place _ (isDirectoryAt_iff.mp there))
  · obtain ⟨node, found⟩ := Option.isSome_iff_exists.mp there
    exact Option.isSome_iff_exists.mpr ⟨node, h.node place node found⟩

theorem keeps_put_file (hplace : place ≠ []) (h : t.isDirectoryAt place = false) :
    t.Keeps (t.put place (.file bytes)) := by
  refine ⟨fun other hother => ?_, fun other hother => ?_⟩
  · have differ : other ≠ place := by
      rintro rfl
      simp [h] at hother
    rw [isDirectoryAt, node?_put hplace, if_neg differ]
    exact hother
  · rw [node?_put hplace]
    split
    · rfl
    · exact hother

theorem step_eq_ok_iff {piece : String} {there : Place} :
    t.step here piece = .ok there ↔ t.isDirectoryAt here = true ∧
      (Path.namesNothing piece = true ∧ there = here ∨
        Path.namesNothing piece = false ∧ piece = ".." ∧ there = here.dropLast ∨
        Path.namesNothing piece = false ∧ piece ≠ ".." ∧ piece.utf8ByteSize ≤ Path.pieceLimit ∧
          (t.node? (here ++ [piece])).isSome = true ∧ there = here ++ [piece]) := by
  unfold step
  grind

theorem step_of_keeps (keeps : t.Keeps made) {piece : String} {there : Place}
    (h : t.step here piece = .ok there) : made.step here piece = .ok there := by
  rw [step_eq_ok_iff] at h ⊢
  obtain ⟨directory, nothing | up | ⟨something, down, fits, found, rfl⟩⟩ := h
  · exact ⟨keeps.directory here directory, .inl nothing⟩
  · exact ⟨keeps.directory here directory, .inr (.inl up)⟩
  · exact ⟨keeps.directory here directory,
      .inr (.inr ⟨something, down, fits, keeps.node _ found, rfl⟩)⟩

theorem walk_of_keeps (keeps : t.Keeps made) {pieces : List String} {there : Place}
    (h : t.walk here pieces = .ok there) : made.walk here pieces = .ok there := by
  induction pieces generalizing here with
  | nil => exact h
  | cons piece pieces ih =>
    obtain ⟨next, hstep, hrest⟩ := Attempt.bind_eq_ok_iff.mp h
    exact Attempt.bind_eq_ok_iff.mpr ⟨next, step_of_keeps keeps hstep, ih hrest⟩

theorem walk_concat_iff {pieces : List String} {piece : String} {there : Place} :
    t.walk here (pieces ++ [piece]) = .ok there ↔
      ∃ middle, t.walk here pieces = .ok middle ∧ t.step middle piece = .ok there := by
  induction pieces generalizing here with
  | nil =>
    constructor
    · intro h
      obtain ⟨next, last, ⟨⟩⟩ := Attempt.bind_eq_ok_iff.mp h
      exact ⟨here, rfl, last⟩
    · rintro ⟨middle, ⟨⟩, last⟩
      exact Attempt.bind_eq_ok_iff.mpr ⟨there, last, rfl⟩
  | cons first pieces ih =>
    constructor
    · intro h
      obtain ⟨next, hstep, hrest⟩ := Attempt.bind_eq_ok_iff.mp h
      obtain ⟨middle, before, last⟩ := ih.mp hrest
      exact ⟨middle, Attempt.bind_eq_ok_iff.mpr ⟨next, hstep, before⟩, last⟩
    · rintro ⟨middle, before, last⟩
      obtain ⟨next, hstep, hrest⟩ := Attempt.bind_eq_ok_iff.mp before
      exact Attempt.bind_eq_ok_iff.mpr ⟨next, hstep, ih.mpr ⟨middle, hrest, last⟩⟩

theorem resolve_of_keeps (keeps : t.Keeps made) (h : t.resolve here p = .ok place) :
    made.resolve here p = .ok place := by
  unfold resolve at h ⊢
  split at h
  · cases h
  · next named =>
    split at h
    · cases h
    · next short => rw [if_neg named, if_neg short, walk_of_keeps keeps h]

theorem newPlace_eq_ok (h : t.newPlace here p = .ok place) :
    ∃ directory name, p.pieces = p.pieces.dropLast ++ [name] ∧ place = directory ++ [name] ∧
      p.isTooLong = false ∧ t.walk (start here p) p.pieces.dropLast = .ok directory ∧
      t.isDirectoryAt directory = true ∧ Path.namesNothing name = false ∧ name ≠ ".." ∧
      name.utf8ByteSize ≤ Path.pieceLimit := by
  unfold newPlace at h
  cases hname : p.pieces.getLast? with
  | none => simp [hname] at h
  | some name =>
    obtain ⟨above, pieces⟩ := List.getLast?_eq_some_iff.mp hname
    have last : p.pieces = p.pieces.dropLast ++ [name] := by
      rw [pieces, List.dropLast_concat]
    cases short : p.isTooLong with
    | true => simp [hname, short, bind, Except.bind] at h
    | false =>
      simp only [hname, short, Bool.false_eq_true, if_false] at h
      obtain ⟨directory, hwalk, h⟩ := Attempt.bind_eq_ok_iff.mp h
      split at h
      · cases h
      · next isDirectory =>
        split at h
        · cases h
        · next proper =>
          split at h
          · cases h
          · next fits =>
            cases h
            simp only [Bool.or_eq_true, beq_iff_eq, not_or, Bool.not_eq_true] at proper
            exact ⟨directory, name, last, rfl, rfl, hwalk, by simpa using isDirectory, proper.1,
              proper.2, Nat.not_lt.mp fits⟩

theorem store_cases (t : FileTree) (here : Place) (p : Path) (bytes : ByteArray) :
    (∃ made, t.Grown made ∧ t.store here p bytes = (made, false)) ∨
      ∃ made place, t.Grown made ∧ made.newPlace here p = .ok place ∧
        made.isDirectoryAt place = false ∧
          t.store here p bytes = (made.put place (.file bytes), true) := by
  have grown := grown_makeParents t here p
  unfold store
  split
  · next made hparents => exact .inl ⟨made, by rwa [hparents] at grown, rfl⟩
  · next made hparents =>
    rw [hparents] at grown
    unfold write?
    cases hplace : made.newPlace here p with
    | error e => exact .inl ⟨made, grown, rfl⟩
    | ok place =>
      cases free : made.isDirectoryAt place with
      | true => exact .inl ⟨made, grown, by simp [free]⟩
      | false => exact .inr ⟨made, place, grown, hplace, free, by simp [free]⟩

theorem ne_nil_of_newPlace (h : t.newPlace here p = .ok place) : place ≠ [] := by
  obtain ⟨directory, name, -, rfl, -⟩ := newPlace_eq_ok h
  simp

end Recolor.FileTree
