import Recolor.Json

namespace Recolor.Json.Members

variable {key : String} {value : Json} {ms : Members}

theorem get?_eq_none_iff : ms.get? key = none ↔ key ∉ ms.keys := by
  induction ms with
  | nil => simp [get?, keys]
  | cons m ms ih =>
    obtain ⟨k, v⟩ := m
    by_cases h : k = key
    · simp [get?, keys, h]
    · simp only [get?, if_neg h, ih]
      simp [keys, Ne.symm h]

theorem mem_of_get? (h : ms.get? key = some value) : (key, value) ∈ ms := by
  induction ms with
  | nil => simp [get?] at h
  | cons m ms ih =>
    obtain ⟨k, v⟩ := m
    by_cases hk : k = key
    · simp only [get?, if_pos hk, Option.some.injEq] at h
      rw [hk, h]
      exact List.mem_cons_self
    · simp only [get?, if_neg hk] at h
      exact List.mem_cons_of_mem _ (ih h)

theorem mem_keys_of_get? (h : ms.get? key = some value) : key ∈ ms.keys :=
  List.mem_map_of_mem (mem_of_get? h)

theorem mem_insert {m : String × Json} (h : m ∈ insert key value ms) :
    m = (key, value) ∨ m ∈ ms := by
  induction ms with
  | nil =>
    simp only [insert, List.mem_singleton] at h
    exact .inl h
  | cons first ms ih =>
    obtain ⟨k, v⟩ := first
    by_cases hk : k = key
    · simp only [insert, if_pos hk, List.mem_cons] at h
      rcases h with rfl | h
      · exact .inl (by rw [hk])
      · exact .inr (List.mem_cons_of_mem _ h)
    · simp only [insert, if_neg hk, List.mem_cons] at h
      rcases h with rfl | h
      · exact .inr List.mem_cons_self
      · exact (ih h).imp id (List.mem_cons_of_mem _)

theorem nodup_keys_insert (h : ms.keys.Nodup) : (insert key value ms).keys.Nodup := by
  rw [keys_insert]
  split
  · exact h
  · next new =>
    rw [List.nodup_append]
    refine ⟨h, by simp, ?_⟩
    rintro k hk _ hkey rfl
    exact new (List.mem_singleton.mp hkey ▸ hk)

theorem eq_of_get? {before after : Members} (nodup : before.keys.Nodup)
    (keys : before.keys = after.keys) (values : ∀ key, before.get? key = after.get? key) :
    before = after := by
  induction before generalizing after with
  | nil =>
    cases after with
    | nil => rfl
    | cons m after => simp [Members.keys] at keys
  | cons m before ih =>
    obtain ⟨k, v⟩ := m
    cases after with
    | nil => simp [Members.keys] at keys
    | cons m' after =>
      obtain ⟨k', v'⟩ := m'
      obtain ⟨rfl, rest⟩ : k = k' ∧ Members.keys before = Members.keys after := by
        simpa [Members.keys] using keys
      obtain ⟨fresh, nodup⟩ : k ∉ Members.keys before ∧ (Members.keys before).Nodup := by
        simpa [Members.keys] using nodup
      have first : v = v' := by simpa [get?] using values k
      have others : before = after := by
        refine ih nodup rest fun key => ?_
        by_cases hk : k = key
        · subst hk
          rw [get?_eq_none_iff.mpr fresh, get?_eq_none_iff.mpr (rest ▸ fresh)]
        · simpa [get?, hk] using values key
      rw [first, others]

structure Extends (written : List String) (before after : Members) : Prop where
  keys : after.keys = before.keys ++ written.filter fun key => key ∉ before.keys
  others : ∀ key, key ∉ written → after.get? key = before.get? key

namespace Extends

variable {first second : List String} {before between after : Members}

theorem refl (ms : Members) : Extends [] ms ms := ⟨by simp, fun _ _ => rfl⟩

theorem trans (h : Extends first before between) (h' : Extends second between after)
    (disjoint : ∀ key ∈ second, key ∉ first) : Extends (first ++ second) before after := by
  refine ⟨?_, fun key hkey => ?_⟩
  · rw [h'.keys, h.keys, List.filter_append, List.append_assoc]
    congr 2
    refine List.filter_congr fun key hkey => ?_
    simp [disjoint key hkey]
  · rw [List.mem_append, not_or] at hkey
    rw [h'.others key hkey.2, h.others key hkey.1]

theorem of_insert (key : String) (value : Json) (ms : Members) :
    Extends [key] ms (insert key value ms) := by
  refine ⟨?_, fun other hother => ?_⟩
  · rw [keys_insert]
    by_cases h : key ∈ ms.keys <;> simp [h]
  · rw [get?_insert, if_neg (by simpa using hother)]

theorem of_insertIfNew (key : String) (value : Json) (ms : Members) :
    Extends [key] ms (insertIfNew key value ms) := by
  cases h : ms.get? key with
  | none =>
    simp only [insertIfNew, h]
    exact of_insert key value ms
  | some old =>
    have there : key ∈ ms.keys := mem_keys_of_get? h
    simp only [insertIfNew, h]
    exact ⟨by simp [there], fun _ _ => rfl⟩

theorem nodup_keys (h : Extends first before after) (distinct : first.Nodup)
    (nodup : before.keys.Nodup) : after.keys.Nodup := by
  rw [h.keys, List.nodup_append]
  refine ⟨nodup, distinct.filter _, ?_⟩
  rintro k hk _ hkey rfl
  simp only [List.mem_filter, decide_eq_true_eq] at hkey
  exact hkey.2 hk

theorem unique {written : List String} {other : Members} (h : Extends written before after)
    (h' : Extends written before other) (distinct : written.Nodup) (nodup : before.keys.Nodup)
    (values : ∀ key ∈ written, after.get? key = other.get? key) : after = other := by
  refine eq_of_get? (h.nodup_keys distinct nodup) (h.keys.trans h'.keys.symm) fun key => ?_
  by_cases hkey : key ∈ written
  · exact values key hkey
  · rw [h.others key hkey, h'.others key hkey]

theorem mem_keys (h : Extends first before after) {key : String} :
    key ∈ after.keys ↔ key ∈ before.keys ∨ key ∈ first := by
  rw [h.keys, List.mem_append, List.mem_filter, decide_eq_true_eq]
  by_cases there : key ∈ before.keys <;> simp [there]

theorem absorb (h : Extends first before between) (h' : Extends second between after)
    (more : first <+: second) (distinct : second.Nodup) : Extends second before after := by
  obtain ⟨rest, rfl⟩ := more
  obtain ⟨-, -, apart⟩ := List.nodup_append.mp distinct
  have again : (first.filter fun key => key ∉ between.keys) = [] := by
    simp +contextual [h.mem_keys]
  have new : (rest.filter fun key => key ∉ between.keys) =
      rest.filter fun key => key ∉ before.keys := by
    refine List.filter_congr fun key hkey => ?_
    have unwritten : key ∉ first := fun hfirst => apart key hfirst key hkey rfl
    simp [h.mem_keys, unwritten]
  refine ⟨?_, fun key hkey => ?_⟩
  · rw [h'.keys, List.filter_append, again, List.nil_append, new, h.keys, List.filter_append,
      List.append_assoc]
  · rw [h'.others key hkey, h.others key fun hfirst => hkey (List.mem_append_left rest hfirst)]

end Extends

theorem get?_insertIfNew (key key' : String) (value : Json) (ms : Members) :
    (insertIfNew key value ms).get? key' =
      if key' = key then (ms.get? key).or (some value) else ms.get? key' := by
  cases h : ms.get? key with
  | none => simp [insertIfNew, h, get?_insert]
  | some old =>
    by_cases hk : key' = key
    · simp [insertIfNew, h, hk]
    · simp [insertIfNew, h, hk]

structure Replaces (key : String) (value : Json) (before after : Members) : Prop where
  keys : after.keys = before.keys
  value : after.get? key = some value
  others : ∀ other, other ≠ key → after.get? other = before.get? other

theorem replaces_insert (value : Json) (there : key ∈ ms.keys) :
    Replaces key value ms (ms.insert key value) where
  keys := by rw [keys_insert, if_pos there]
  value := by rw [get?_insert, if_pos rfl]
  others other apart := by rw [get?_insert, if_neg apart]

end Recolor.Json.Members
