import Mathlib.Data.List.Basic
import Recolor.Proofs.Json.Compact

namespace Recolor.Json

variable {f : String → String}

mutual

def texts : Json → List String
  | .string s => [s]
  | .array items => itemTexts items
  | .object members => memberTexts members
  | _ => []

def itemTexts : List Json → List String
  | [] => []
  | item :: items => texts item ++ itemTexts items

def memberTexts : Members → List String
  | [] => []
  | (key, value) :: members => key :: (texts value ++ memberTexts members)

end

mutual

def mapTexts (f : String → String) : Json → Json
  | .string s => .string (f s)
  | .array items => .array (mapItemTexts f items)
  | .object members => .object (mapMemberTexts f members)
  | other => other

def mapItemTexts (f : String → String) : List Json → List Json
  | [] => []
  | item :: items => mapTexts f item :: mapItemTexts f items

def mapMemberTexts (f : String → String) : Members → Members
  | [] => []
  | (key, value) :: members => (f key, mapTexts f value) :: mapMemberTexts f members

end

theorem texts_array (items : List Json) : texts (.array items) = items.flatMap texts := by
  change itemTexts items = _
  induction items with
  | nil => rfl
  | cons item items ih => rw [itemTexts, ih, List.flatMap_cons]

theorem texts_object (ms : Members) :
    texts (.object ms) = ms.flatMap fun m => m.1 :: texts m.2 := by
  change memberTexts ms = _
  induction ms with
  | nil => rfl
  | cons m ms ih =>
    obtain ⟨key, value⟩ := m
    rw [memberTexts, ih, List.flatMap_cons, List.cons_append]

theorem mapTexts_array (f : String → String) (items : List Json) :
    mapTexts f (.array items) = .array (items.map (mapTexts f)) := by
  have each : mapItemTexts f items = items.map (mapTexts f) := by
    induction items with
    | nil => rfl
    | cons item items ih => rw [mapItemTexts, ih, List.map_cons]
  rw [← each]
  rfl

theorem mapTexts_object (f : String → String) (ms : Members) :
    mapTexts f (.object ms) = .object (ms.map fun m => (f m.1, mapTexts f m.2)) := by
  have each : mapMemberTexts f ms = ms.map fun m => (f m.1, mapTexts f m.2) := by
    induction ms with
    | nil => rfl
    | cons m ms ih =>
      obtain ⟨key, value⟩ := m
      rw [mapMemberTexts, ih, List.map_cons]
  rw [← each]
  rfl

theorem texts_mapTexts (f : String → String) (j : Json) :
    (j.mapTexts f).texts = j.texts.map f := by
  induction j using induct with
  | array items ih =>
    rw [mapTexts_array, texts_array, texts_array, List.flatMap_map, List.map_flatMap]
    exact List.flatMap_congr ih
  | object ms ih =>
    rw [mapTexts_object, texts_object, texts_object, List.flatMap_map, List.map_flatMap]
    exact List.flatMap_congr fun m hm => by rw [List.map_cons, ih m hm]
  | _ => rfl

theorem mapTexts_eq_self {j : Json} (h : ∀ s ∈ j.texts, f s = s) : j.mapTexts f = j := by
  induction j using induct with
  | string s => exact congrArg Json.string (h s List.mem_cons_self)
  | array items ih =>
    rw [texts_array] at h
    rw [mapTexts_array, List.map_congr_left fun item hitem => ih item hitem fun s hs =>
      h s (List.mem_flatMap.mpr ⟨item, hitem, hs⟩), List.map_id']
  | object ms ih =>
    rw [texts_object] at h
    have each : ∀ m ∈ ms, (f m.1, mapTexts f m.2) = m := fun m hm => by
      have texts := fun s hs => h s (List.mem_flatMap.mpr ⟨m, hm, hs⟩)
      rw [texts m.1 List.mem_cons_self,
        ih m hm fun s hs => texts s (List.mem_cons_of_mem _ hs)]
    rw [mapTexts_object, List.map_congr_left each, List.map_id']
  | _ => rfl

def isForeign (c : Char) : Bool :=
  !(isEscaped c || isEscape c || ['[', ']', '\x7b', '\x7d', ',', ':'].contains c)

section Foreign

variable {c : Char} {s left right : String}

theorem not_mem_of_isForeign (h : isForeign c = true) (hs : s.toList.any isForeign = false) :
    c ∉ s.toList := fun there => by
  cases hs.symm.trans (List.any_eq_true.mpr ⟨c, there, h⟩)

theorem not_mem_of_plain (h : isForeign c = true) (hs : Plain s) : c ∉ s.toList := fun there => by
  simp [isForeign, isEscape, hs c there] at h

theorem mem_enclosed_iff (hl : c ∉ left.toList) (hr : c ∉ right.toList) :
    c ∈ (left ++ s ++ right).toList ↔ c ∈ s.toList := by
  simp [hl, hr]

theorem mem_intercalate_iff {mark : String} {parts : List String} (h : c ∉ mark.toList) :
    c ∈ (mark.intercalate parts).toList ↔ ∃ part ∈ parts, c ∈ part.toList := by
  induction parts with
  | nil => simp
  | cons part parts ih =>
    cases parts with
    | nil => simp
    | cons next parts =>
      rw [String.intercalate_cons_cons, String.toList_append, String.toList_append,
        List.mem_append, List.mem_append, ih, List.exists_mem_cons_iff]
      simp [h]

theorem mem_escapeChar_iff (h : isForeign c = true) {d : Char} : c ∈ escapeChar d ↔ c = d := by
  simp only [isForeign, Bool.not_eq_true', Bool.or_eq_false_iff] at h
  obtain ⟨⟨unescaped, noEscape⟩, -⟩ := h
  cases escaped : isEscaped d with
  | true =>
    constructor
    · intro there
      cases noEscape.symm.trans (isEscape_of_mem_escapeChar escaped there)
    · rintro rfl
      cases unescaped.symm.trans escaped
  | false => rw [escapeChar_of_not_isEscaped escaped, List.mem_singleton]

theorem mem_quoted_iff (h : isForeign c = true) : c ∈ (quoted s).toList ↔ c ∈ s.toList := by
  have quote : c ∉ "\"".toList := not_mem_of_isForeign h (by decide)
  rw [quoted, mem_enclosed_iff quote quote, String.toList_ofList]
  simp [mem_escapeChar_iff h]

theorem mem_memberText_iff (h : isForeign c = true) {m : String × Json} :
    c ∈ (memberText m).toList ↔ c ∈ m.1.toList ∨ c ∈ m.2.compact.toList := by
  have colon : c ∉ ":".toList := not_mem_of_isForeign h (by decide)
  rw [memberText, String.toList_append, String.toList_append, List.mem_append, List.mem_append,
    mem_quoted_iff h, or_iff_left colon]

theorem mem_sequence_iff {α : Type} {items : List α} {written : α → String}
    {inner : α → List String} (h : isForeign c = true) (hl : c ∉ left.toList)
    (hr : c ∉ right.toList)
    (each : ∀ item ∈ items, (c ∈ (written item).toList ↔ ∃ s ∈ inner item, c ∈ s.toList)) :
    c ∈ (left ++ ",".intercalate (items.map written) ++ right).toList ↔
      ∃ s ∈ items.flatMap inner, c ∈ s.toList := by
  have comma : c ∉ ",".toList := not_mem_of_isForeign h (by decide)
  rw [mem_enclosed_iff hl hr, mem_intercalate_iff comma]
  constructor
  · rintro ⟨_, hpart, hc⟩
    obtain ⟨item, hitem, rfl⟩ := List.mem_map.mp hpart
    obtain ⟨s, hs, hc⟩ := (each item hitem).mp hc
    exact ⟨s, List.mem_flatMap.mpr ⟨item, hitem, hs⟩, hc⟩
  · rintro ⟨s, hs, hc⟩
    obtain ⟨item, hitem, hs⟩ := List.mem_flatMap.mp hs
    exact ⟨_, List.mem_map_of_mem hitem, (each item hitem).mpr ⟨s, hs, hc⟩⟩

theorem mem_compact_iff (h : isForeign c = true) {j : Json} :
    c ∈ j.compact.toList ↔ ∃ s ∈ j.texts, c ∈ s.toList := by
  have nowhere {text : String} (hc : c ∉ text.toList) :
      c ∈ text.toList ↔ ∃ s ∈ ([] : List String), c ∈ s.toList := by simp [hc]
  induction j using induct with
  | null => exact nowhere (not_mem_of_plain h (by decide))
  | bool b => cases b <;> exact nowhere (not_mem_of_plain h (by decide))
  | integer i => exact nowhere (not_mem_of_plain h (Plain.intRepr i))
  | real x => exact nowhere (not_mem_of_plain h (Plain.realText x))
  | string s =>
    change c ∈ (quoted s).toList ↔ ∃ t ∈ [s], c ∈ t.toList
    simp [mem_quoted_iff h]
  | array items ih =>
    rw [compact_array, texts_array]
    exact mem_sequence_iff h (not_mem_of_isForeign h (by decide))
      (not_mem_of_isForeign h (by decide)) ih
  | object ms ih =>
    rw [compact_object, texts_object]
    refine mem_sequence_iff h (not_mem_of_isForeign h (by decide))
      (not_mem_of_isForeign h (by decide)) fun m hm => ?_
    rw [mem_memberText_iff h, List.exists_mem_cons_iff]
    exact or_congr_right (ih m hm)

end Foreign

end Recolor.Json
