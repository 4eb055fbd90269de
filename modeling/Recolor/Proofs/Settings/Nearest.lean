import Recolor.Proofs.FileTree.Store
import Recolor.Proofs.Path.Ancestors
import Recolor.Settings.File

namespace Recolor

namespace FileTree

variable {t : FileTree} {here there : Place} {pieces : List String} {piece : String} {p : Path}

theorem exists_node_of_resolve (something : Path.namesNothing piece = false) (down : piece ≠ "..")
    (last : p.pieces = pieces ++ [piece]) (h : t.resolve here p = .ok there) :
    ∃ node, t.node? there = some node := by
  unfold resolve at h
  split at h
  · cases h
  · split at h
    · cases h
    · rw [last] at h
      obtain ⟨middle, -, step⟩ := walk_concat_iff.mp h
      obtain ⟨-, ⟨nothing, -⟩ | ⟨-, up, -⟩ | ⟨-, -, -, found, rfl⟩⟩ := step_eq_ok_iff.mp step
      · cases something.symm.trans nothing
      · exact absurd up down
      · exact Option.isSome_iff_exists.mp found

end FileTree

namespace Settings

variable {present : Path → Bool} {start directory file : Path} {probes probes' : Nat}
  {result result' : Option Path}

def nearestOf? (present : Path → Bool) (start : Path) : Option Path :=
  (candidates start).find? present

/-- With the number of files that were looked for, and the one that was found. -/
inductive Search (present : Path → Bool) : Path → Nat → Option Path → Prop where
  | found {directory : Path} (there : present (directory.join fileName) = true) :
      Search present directory 1 (some (directory.join fileName))
  | last {directory : Path} (absent : present (directory.join fileName) = false)
      (top : directory.parent? = none) : Search present directory 1 none
  | above {directory parent : Path} {probes : Nat} {result : Option Path}
      (absent : present (directory.join fileName) = false) (up : directory.parent? = some parent)
      (rest : Search present parent probes result) : Search present directory (probes + 1) result

theorem Search.unique (h : Search present start probes result)
    (h' : Search present start probes' result') : probes = probes' ∧ result = result' := by
  induction h generalizing probes' result' with
  | found there =>
    cases h' with
    | found _ => exact ⟨rfl, rfl⟩
    | last absent _ => cases there.symm.trans absent
    | above absent _ _ => cases there.symm.trans absent
  | last absent top =>
    cases h' with
    | found there => cases there.symm.trans absent
    | last _ _ => exact ⟨rfl, rfl⟩
    | above _ up _ => cases top.symm.trans up
  | above absent up _ ih =>
    cases h' with
    | found there => cases there.symm.trans absent
    | last _ top => cases top.symm.trans up
    | above _ up' rest =>
      cases up.symm.trans up'
      obtain ⟨rfl, rfl⟩ := ih rest
      exact ⟨rfl, rfl⟩

theorem exists_search (present : Path → Bool) (start : Path) :
    ∃ probes ≤ start.ancestors.length, Search present start probes (nearestOf? present start) := by
  induction start using Path.ancestors.induct with
  | case1 directory top =>
    rw [nearestOf?, candidates, Path.ancestors_of_last top]
    refine ⟨1, Nat.le_refl 1, ?_⟩
    cases there : present (directory.join fileName) with
    | true =>
      simp only [List.map_cons, List.find?_cons_of_pos there]
      exact .found there
    | false =>
      simp only [List.map_cons, List.map_nil, List.find?_cons, there, List.find?_nil]
      exact .last there top
  | case2 directory parent up ih =>
    rw [nearestOf?, candidates, Path.ancestors_of_parent up]
    cases there : present (directory.join fileName) with
    | true =>
      simp only [List.map_cons, List.find?_cons_of_pos there]
      exact ⟨1, Nat.succ_le_succ (Nat.zero_le _), .found there⟩
    | false =>
      obtain ⟨probes, few, rest⟩ := ih
      simp only [List.map_cons, List.find?_cons, there]
      exact ⟨probes + 1, Nat.succ_le_succ few, .above there up rest⟩

theorem getElem?_candidates (start : Path) (k : Nat) :
    (candidates start)[k]? = (start.ancestor? k).map fun directory => directory.join fileName := by
  rw [candidates, List.getElem?_map, Path.getElem?_ancestors]

theorem nearestOf?_eq_some_iff :
    nearestOf? present start = some file ↔
      ∃ k directory, start.ancestor? k = some directory ∧ file = directory.join fileName ∧
        present file = true ∧ ∀ i < k, ∀ lower, start.ancestor? i = some lower →
          present (lower.join fileName) = false := by
  have at_iff (k : Nat) (candidate : Path) : (candidates start)[k]? = some candidate ↔
      ∃ directory, start.ancestor? k = some directory ∧ directory.join fileName = candidate := by
    rw [getElem?_candidates, Option.map_eq_some_iff]
  rw [nearestOf?, List.find?_eq_some_iff_getElem]
  constructor
  · rintro ⟨there, k, inside, rfl, earlier⟩
    obtain ⟨directory, level, here⟩ := (at_iff k _).mp (List.getElem?_eq_getElem inside)
    refine ⟨k, directory, level, here.symm, there, fun i less lower hlower => ?_⟩
    have below : i < (candidates start).length := Nat.lt_trans less inside
    have same : (candidates start)[i] = lower.join fileName :=
      Option.some.inj ((List.getElem?_eq_getElem below).symm.trans
        ((at_iff i _).mpr ⟨lower, hlower, rfl⟩))
    simpa [same] using earlier i less
  · rintro ⟨k, directory, level, rfl, there, earlier⟩
    obtain ⟨inside, here⟩ := List.getElem?_eq_some_iff.mp ((at_iff k _).mpr ⟨directory, level, rfl⟩)
    refine ⟨there, k, inside, here, fun i less => ?_⟩
    have below : i < (candidates start).length := Nat.lt_trans less inside
    obtain ⟨lower, hlower, same⟩ := (at_iff i _).mp (List.getElem?_eq_getElem below)
    rw [← same, earlier i less lower hlower]
    rfl

theorem nearestOf?_eq_none_iff :
    nearestOf? present start = none ↔ ∀ k directory, start.ancestor? k = some directory →
      present (directory.join fileName) = false := by
  rw [nearestOf?, List.find?_eq_none]
  constructor
  · intro absent k directory level
    have here : directory.join fileName ∈ candidates start :=
      List.mem_of_getElem? ((getElem?_candidates start k).trans (congrArg _ level))
    simpa using absent _ here
  · intro absent candidate here
    obtain ⟨k, index⟩ := List.mem_iff_getElem?.mp here
    obtain ⟨directory, level, rfl⟩ :=
      Option.map_eq_some_iff.mp ((getElem?_candidates start k).symm.trans index)
    simp [absent k directory level]

theorem pieces_candidate (directory : Path) :
    ∃ front, (directory.join fileName).pieces = front ++ ["drawables.toml"] := by
  have name : fileName = ⟨false, ["drawables.toml"]⟩ := rfl
  rw [name, Path.join]
  split
  · exact ⟨[], rfl⟩
  · split
    · exact ⟨[], rfl⟩
    · exact ⟨_, rfl⟩

theorem contains_candidate_iff {t : FileTree} {here : Place} :
    t.contains here (directory.join fileName) = true ↔
      ∃ place node, t.resolve here (directory.join fileName) = .ok place ∧
        t.node? place = some node := by
  obtain ⟨front, last⟩ := pieces_candidate directory
  rw [FileTree.contains]
  cases found : t.resolve here (directory.join fileName) with
  | error e => exact ⟨nofun, nofun⟩
  | ok place =>
    obtain ⟨node, there⟩ :=
      FileTree.exists_node_of_resolve (by decide) (by decide) last found
    exact ⟨fun _ => ⟨place, node, rfl, there⟩, fun _ => rfl⟩

theorem nearestOf?_least (present : Path → Bool) (start : Path) :
    (∃ probes ≤ start.components.length + 1, ∀ n result,
      Search present start n result ↔ n = probes ∧ result = nearestOf? present start) ∧
    (∀ file, nearestOf? present start = some file ↔
      ∃ k directory, start.ancestor? k = some directory ∧ file = directory.join fileName ∧
        present file = true ∧ ∀ i < k, ∀ lower, start.ancestor? i = some lower →
          present (lower.join fileName) = false) ∧
    (nearestOf? present start = none ↔ ∀ k directory, start.ancestor? k = some directory →
      present (directory.join fileName) = false) ∧
    ∀ (t : FileTree) (here : Place),
      nearest? t here start = nearestOf? (t.contains here) start ∧
      ∀ directory : Path, t.contains here (directory.join fileName) = true ↔
        ∃ place node, t.resolve here (directory.join fileName) = .ok place ∧
          t.node? place = some node := by
  obtain ⟨probes, few, search⟩ := exists_search present start
  refine ⟨⟨probes, Nat.le_trans few start.length_ancestors_le, fun n result => ⟨?_, ?_⟩⟩,
    fun file => nearestOf?_eq_some_iff, nearestOf?_eq_none_iff,
    fun t here => ⟨rfl, fun directory => contains_candidate_iff⟩⟩
  · exact fun other => other.unique search
  · rintro ⟨rfl, rfl⟩
    exact search

end Settings

end Recolor
