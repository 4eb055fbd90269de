import Mathlib

namespace Recolor.Text

variable {P : Char → Bool} {xs ys rest rest' : List Char}

def Stops (P : Char → Bool) (rest : List Char) : Prop := ∀ c ∈ rest.head?, P c = false

theorem stops_nil : Stops P [] := nofun

theorem stops_cons {c : Char} (h : P c = false) (rest : List Char) : Stops P (c :: rest) := by
  rintro d ⟨⟩
  exact h

theorem Stops.append (hx : Stops P xs) (h : Stops P rest) : Stops P (xs ++ rest) := by
  cases xs with
  | nil => exact h
  | cons x xs => exact hx

theorem not_stops_cons {c : Char} (h : P c = true) (rest : List Char) : ¬ Stops P (c :: rest) := by
  intro stops
  exact absurd (h.symm.trans (stops c rfl)) (by decide)

theorem append_inj_of_stops (hx : ∀ c ∈ xs, P c = true) (hy : ∀ c ∈ ys, P c = true)
    (stops : Stops P rest) (stops' : Stops P rest') (h : xs ++ rest = ys ++ rest') :
    xs = ys ∧ rest = rest' := by
  induction xs generalizing ys with
  | nil =>
    cases ys with
    | nil => exact ⟨rfl, h⟩
    | cons y ys =>
      rw [List.nil_append] at h
      exact absurd (h ▸ stops) (not_stops_cons (hy y List.mem_cons_self) _)
  | cons x xs ih =>
    cases ys with
    | nil =>
      rw [List.nil_append] at h
      exact absurd (h.symm ▸ stops') (not_stops_cons (hx x List.mem_cons_self) _)
    | cons y ys =>
      obtain ⟨rfl, tail⟩ := List.cons.inj h
      obtain ⟨rfl, same⟩ := ih (fun c hc => hx c (List.mem_cons_of_mem _ hc))
        (fun c hc => hy c (List.mem_cons_of_mem _ hc)) tail
      exact ⟨rfl, same⟩

theorem append_mark_inj {before before' code code' : List Char} {mark mark' : Char}
    (hc : ∀ c ∈ code, P c = true) (hc' : ∀ c ∈ code', P c = true)
    (hm : P mark = false) (hm' : P mark' = false)
    (h : before ++ mark :: code = before' ++ mark' :: code') :
    before = before' ∧ mark = mark' ∧ code = code' := by
  have backward := congrArg List.reverse h
  simp only [List.reverse_append, List.reverse_cons, List.append_assoc, List.singleton_append]
    at backward
  obtain ⟨same, rest⟩ := append_inj_of_stops (fun c h => hc c (List.mem_reverse.mp h))
    (fun c h => hc' c (List.mem_reverse.mp h)) (stops_cons hm _) (stops_cons hm' _) backward
  obtain ⟨rfl, others⟩ := List.cons.inj rest
  exact ⟨List.reverse_inj.mp others, rfl, List.reverse_inj.mp same⟩

def isSigned (c : Char) : Bool := c == '-' || c.isDigit

theorem isDigit_of_mem_repr {n : Nat} {c : Char} (h : c ∈ n.repr.toList) : c.isDigit = true := by
  rw [Nat.toList_repr] at h
  exact Nat.isDigit_of_mem_toDigits (by decide) (by decide) h

theorem isSigned_of_mem_repr {i : Int} {c : Char} (h : c ∈ i.repr.toList) : isSigned c = true := by
  cases i with
  | ofNat n => simp [isSigned, isDigit_of_mem_repr (n := n) h]
  | negSucc n =>
    have h : c ∈ ("-" ++ (n + 1).repr).toList := h
    rw [String.toList_append] at h
    rcases List.mem_cons.mp h with rfl | h
    · rfl
    · simp [isSigned, isDigit_of_mem_repr h]

theorem intRepr_append_inj {i j : Int} (stops : Stops isSigned rest) (stops' : Stops isSigned rest')
    (h : i.repr.toList ++ rest = j.repr.toList ++ rest') : i = j ∧ rest = rest' := by
  obtain ⟨same, h⟩ := append_inj_of_stops (fun _ => isSigned_of_mem_repr)
    (fun _ => isSigned_of_mem_repr) stops stops' h
  exact ⟨Int.repr_inj.mp (String.toList_inj.mp same), h⟩

theorem natRepr_append_inj {m n : Nat} (stops : Stops isSigned rest) (stops' : Stops isSigned rest')
    (h : m.repr.toList ++ rest = n.repr.toList ++ rest') : m = n ∧ rest = rest' := by
  obtain ⟨same, h⟩ := intRepr_append_inj (i := .ofNat m) (j := .ofNat n) stops stops' h
  exact ⟨Int.ofNat.inj same, h⟩

end Recolor.Text
