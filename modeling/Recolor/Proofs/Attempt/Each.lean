import Mathlib.Data.List.Forall2
import Recolor.Proofs.Attempt

namespace Recolor.Attempt

variable {ε α β : Type} {f : Nat → α → Except ε β} {P : α → Prop} {R : α → β → Prop}
  {xs : List α} {x y : α} {k : Nat}

def each (f : Nat → α → Except ε β) (index : Nat) : List α → Except ε (List β)
  | [] => .ok []
  | x :: xs => do
    let y ← f index x
    let ys ← each f (index + 1) xs
    return y :: ys

def First (P : α → Prop) (xs : List α) (k : Nat) (x : α) : Prop :=
  xs[k]? = some x ∧ P x ∧ ∀ y ∈ xs.take k, ¬ P y

theorem first_cons_zero_iff : First P (y :: xs) 0 x ↔ y = x ∧ P x := by
  simp [First]

theorem first_cons_succ_iff : First P (y :: xs) (k + 1) x ↔ ¬ P y ∧ First P xs k x := by
  simp only [First, List.getElem?_cons_succ, List.take_succ_cons, List.forall_mem_cons]
  constructor
  · rintro ⟨there, bad, fine, others⟩
    exact ⟨fine, there, bad, others⟩
  · rintro ⟨fine, there, bad, others⟩
    exact ⟨there, bad, fine, others⟩

theorem exists_first_iff : (∃ k x, First P xs k x) ↔ ∃ x ∈ xs, P x := by
  constructor
  · rintro ⟨k, x, there, bad, -⟩
    exact ⟨x, List.mem_of_getElem? there, bad⟩
  · rintro ⟨x, hx, bad⟩
    induction xs with
    | nil => cases hx
    | cons y xs ih =>
      by_cases here : P y
      · exact ⟨0, y, first_cons_zero_iff.mpr ⟨rfl, here⟩⟩
      · have later : x ∈ xs := (List.mem_cons.mp hx).resolve_left fun same => here (same ▸ bad)
        obtain ⟨k, z, first⟩ := ih later
        exact ⟨k + 1, z, first_cons_succ_iff.mpr ⟨here, first⟩⟩

theorem each_eq_ok_iff (fits : ∀ index x y, f index x = .ok y ↔ R x y) {index : Nat} {ys : List β} :
    each f index xs = .ok ys ↔ List.Forall₂ R xs ys := by
  induction xs generalizing index ys with
  | nil => cases ys <;> simp [each]
  | cons x xs ih =>
    simp only [each, bind_eq_ok_iff, fits, ih]
    constructor
    · rintro ⟨y, hy, rest, hrest, ⟨⟩⟩
      exact .cons hy hrest
    · rintro (_ | ⟨hy, hrest⟩)
      exact ⟨_, hy, _, hrest, rfl⟩

theorem each_eq_error_iff (fails : ∀ index x, (∃ e, f index x = .error e) ↔ P x) {index : Nat}
    {e : ε} : each f index xs = .error e ↔ ∃ k x, First P xs k x ∧ f (index + k) x = .error e := by
  induction xs generalizing index with
  | nil => simp [each, First]
  | cons y xs ih =>
    cases head : f index y with
    | error d =>
      -- nothing stands before the head, so it is the first for whatever reason the whole fails
      have bad : P y := (fails index y).mp ⟨d, head⟩
      have stops : each f index (y :: xs) = .error d := bind_eq_error_iff.mpr (.inl head)
      rw [stops]
      constructor
      · rintro ⟨⟩
        exact ⟨0, y, first_cons_zero_iff.mpr ⟨rfl, bad⟩, head⟩
      · rintro ⟨_ | k, x, first, hx⟩
        · obtain ⟨rfl, -⟩ := first_cons_zero_iff.mp first
          cases head.symm.trans hx
          rfl
        · exact absurd bad (first_cons_succ_iff.mp first).1
    | ok b =>
      have fine : ¬ P y := by
        intro bad
        obtain ⟨d, hd⟩ := (fails index y).mpr bad
        cases head.symm.trans hd
      have later (k : Nat) : index + 1 + k = index + (k + 1) := by omega
      simp only [each, bind_eq_error_iff, head, reduceCtorEq, false_or, Except.ok.injEq,
        exists_eq_left', ih, later]
      constructor
      · rintro (⟨k, x, first, hx⟩ | ⟨_, -, ⟨⟩⟩)
        exact ⟨k + 1, x, first_cons_succ_iff.mpr ⟨fine, first⟩, hx⟩
      · rintro ⟨_ | k, x, first, hx⟩
        · obtain ⟨rfl, bad⟩ := first_cons_zero_iff.mp first
          exact absurd bad fine
        · exact .inl ⟨k, x, (first_cons_succ_iff.mp first).2, hx⟩

theorem exists_each_eq_error_iff (fails : ∀ index x, (∃ e, f index x = .error e) ↔ P x)
    {index : Nat} : (∃ e, each f index xs = .error e) ↔ ∃ x ∈ xs, P x := by
  simp only [each_eq_error_iff fails]
  constructor
  · rintro ⟨_, k, x, first, -⟩
    exact exists_first_iff.mp ⟨k, x, first⟩
  · intro some
    obtain ⟨k, x, first⟩ := exists_first_iff.mpr some
    obtain ⟨e, he⟩ := (fails (index + k) x).mpr first.2.1
    exact ⟨e, k, x, first, he⟩

end Recolor.Attempt
