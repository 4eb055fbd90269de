import Recolor.Json.Document
import Recolor.Proofs.Json.Members

namespace Recolor.Json

inductive Distinct : Json → Prop where
  | null : Distinct .null
  | bool (b : Bool) : Distinct (.bool b)
  | integer (i : Int) : Distinct (.integer i)
  | real (x : Binary64) : Distinct (.real x)
  | string (s : String) : Distinct (.string s)
  | array {items : List Json} (each : ∀ item ∈ items, Distinct item) : Distinct (.array items)
  | object {ms : Members} (keys : ms.keys.Nodup) (each : ∀ m ∈ ms, Distinct m.2) :
      Distinct (.object ms)

namespace Distinct

variable {key : String} {value : Json} {ms : Members}

theorem insert (hms : Distinct (.object ms)) (hvalue : Distinct value) :
    Distinct (.object (ms.insert key value)) := by
  cases hms with
  | object keys each =>
    refine .object (Members.nodup_keys_insert keys) fun m hm => ?_
    rcases Members.mem_insert hm with rfl | hm
    · exact hvalue
    · exact each m hm

theorem nodup_keys (h : Distinct (.object ms)) : ms.keys.Nodup := by
  cases h with
  | object keys _ => exact keys

theorem of_get? (h : Distinct (.object ms)) (hv : ms.get? key = some value) : Distinct value := by
  cases h with
  | object _ each => exact each _ (Members.mem_of_get? hv)

end Distinct

namespace Numeral

theorem distinct_of_value? {n : Numeral} {v : Json} (h : n.value? = some v) : v.Distinct := by
  cases hi : n.integer? with
  | some i =>
    simp only [value?, hi, Option.some.injEq] at h
    exact h ▸ .integer i
  | none =>
    simp only [value?, hi, Option.map_eq_some_iff] at h
    obtain ⟨x, -, rfl⟩ := h
    exact .real x

end Numeral

namespace Document

mutual

theorem distinct_of_valueWithin? (levels : Nat) (d : Document) (v : Json)
    (h : valueWithin? levels d = some v) : v.Distinct := by
  match levels, d with
  | _, .null =>
    simp only [valueWithin?, Option.some.injEq] at h
    exact h ▸ .null
  | _, .bool b =>
    simp only [valueWithin?, Option.some.injEq] at h
    exact h ▸ .bool b
  | _, .number n =>
    simp only [valueWithin?] at h
    exact Numeral.distinct_of_value? h
  | _, .string text =>
    simp only [valueWithin?, Option.map_eq_some_iff] at h
    obtain ⟨s, -, rfl⟩ := h
    exact .string s
  | 0, .array items => simp [valueWithin?] at h
  | levels + 1, .array items =>
    simp only [valueWithin?, Option.map_eq_some_iff] at h
    obtain ⟨values, hvalues, rfl⟩ := h
    exact .array (distinct_of_itemsWithin? levels items values hvalues)
  | 0, .object members => simp [valueWithin?] at h
  | levels + 1, .object members =>
    simp only [valueWithin?, Option.map_eq_some_iff] at h
    obtain ⟨ms, hms, rfl⟩ := h
    have empty : Distinct (.object []) := .object List.nodup_nil (by simp)
    exact distinct_of_membersWithin? levels members [] ms empty hms

theorem distinct_of_itemsWithin? (levels : Nat) (items : List Document) (values : List Json)
    (h : itemsWithin? levels items = some values) : ∀ v ∈ values, v.Distinct := by
  match items with
  | [] =>
    simp only [itemsWithin?, Option.some.injEq] at h
    simp [← h]
  | item :: items =>
    simp only [itemsWithin?, Option.bind_eq_bind, Option.bind_eq_some_iff] at h
    obtain ⟨first, hfirst, rest, hrest, hvalues⟩ := h
    cases hvalues
    intro v hv
    rcases List.mem_cons.mp hv with rfl | hv
    · exact distinct_of_valueWithin? levels item v hfirst
    · exact distinct_of_itemsWithin? levels items rest hrest v hv

theorem distinct_of_membersWithin? (levels : Nat) (members : List (Option String × Document))
    (done ms : Members) (hdone : Distinct (.object done))
    (h : membersWithin? levels done members = some ms) : Distinct (.object ms) := by
  match members with
  | [] =>
    simp only [membersWithin?, Option.some.injEq] at h
    exact h ▸ hdone
  | (key, item) :: members =>
    simp only [membersWithin?, Option.bind_eq_bind, Option.bind_eq_some_iff] at h
    obtain ⟨k, -, value, hvalue, hrest⟩ := h
    have first := distinct_of_valueWithin? levels item value hvalue
    exact distinct_of_membersWithin? levels members _ ms (hdone.insert first) hrest

end

end Document

theorem distinct_of_read {s : String} {v : Json} (h : Json.read s = some v) : v.Distinct := by
  obtain ⟨d, -, hd⟩ := Option.bind_eq_some_iff.mp h
  exact Document.distinct_of_valueWithin? _ d v hd

end Recolor.Json
