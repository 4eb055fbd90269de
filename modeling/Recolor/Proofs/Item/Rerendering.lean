import Mathlib.Data.List.TakeDrop
import Recolor.Proofs.Item.Usable

namespace Recolor.Descriptor

open Json (Members)
open Json.Members (Extends)

variable {a b : Mosaic} {ga gb : Option String} {ia ib : Bool}

theorem partNames_of_le (ordinal : Nat) {few many : Nat} (h : few ≤ many) :
    partNames ordinal few <+: partNames ordinal many := by
  obtain ⟨more, rfl⟩ := Nat.exists_eq_add_of_le h
  refine ⟨partNames (ordinal + few) more, ?_⟩
  rw [partNames, partNames, partNames, ← List.map_append, List.range'_append_1]

theorem Layers.IsNested.isOpen {l : Layers} (h : l.IsNested) : l.IsOpen :=
  ⟨.inl h.parameters, .inl h.animation, .inl h.animated, .inl h.parts⟩

theorem Fills.absorb {before between after : Layers} (first : Fills a ga ia before between)
    (second : Fills b gb ib between after)
    (fewer : a.drawables.length ≤ b.drawables.length) (icons : ib = true ∨ ia = false) :
    Fills b gb ib before after where
  nested := second.nested
  root := first.root.absorb second.root (List.prefix_refl _) (by decide)
  -- A default of the first time is there the second time, and is the same default.
  name := by
    rw [second.name, first.name, Option.or_assoc, Option.some_or]
  count := by
    rw [second.count, first.count, Option.or_assoc, Option.some_or]
  parameters := by
    refine first.parameters.absorb second.parameters ?_ ?_
    · rcases icons with rfl | rfl
      · cases ia <;> decide
      · cases ib <;> decide
    · cases ib <;> decide
  icon := second.icon
  animation := first.animation.absorb second.animation (List.prefix_refl _) (by decide)
  animated := first.animated.absorb second.animated (List.prefix_refl _) (by decide)
  parts := first.parts.absorb second.parts (partNames_of_le 1 fewer) (nodup_partNames _ _)
  part := second.part

theorem filled_filled {before : Layers} (fewer : a.drawables.length ≤ b.drawables.length)
    (icons : ib = true ∨ ia = false) (opened : before.IsOpen)
    (distinct : Json.Distinct (.object before.root)) :
    (before.filled a ga ia).filled b gb ib = before.filled b gb ib := by
  have twice := (fills_filled before a ga ia).absorb (fills_filled _ b gb ib) fewer icons
  exact twice.unique (fills_filled before b gb ib) opened distinct

theorem ofText_over_made {text text' : String} {made : Json}
    (fewer : a.drawables.length ≤ b.drawables.length) (icons : ib = true ∨ ia = false)
    (hmade : ofText a text ga ia = .ok made) (hread : Json.read text' = some made) :
    ofText b text' gb ib = ofText b text gb ib ∧
      (∃ descriptor, ofText b text gb ib = .ok descriptor) ∧
      ofText a text' ga ia = .ok made := by
  obtain ⟨before, read, opened⟩ := usable_of_ofText hmade
  obtain rfl : made = .object (before.filled a ga ia).root :=
    Except.ok.inj (hmade.symm.trans (ofText_of_isOpen read opened a ga ia))
  have distinct := Json.distinct_of_read read
  have again := (fills_filled before a ga ia).nested.isOpen
  refine ⟨?_, ⟨_, ofText_of_isOpen read opened b gb ib⟩, ?_⟩
  · rw [ofText_of_isOpen hread again b gb ib, ofText_of_isOpen read opened b gb ib,
      filled_filled fewer icons opened distinct]
  · rw [ofText_of_isOpen hread again a ga ia,
      filled_filled (Nat.le_refl _) (Bool.eq_false_or_eq_true ia) opened distinct]

theorem ofText_over_made_second_part :
    let text := "\x7b\"parameters\":\x7b\"animationCustom\":\x7b\"animatedParts\":" ++
      "\x7b\"parts\":\x7b\"D_2\":[]\x7d\x7d\x7d\x7d\x7d"
    let text' := "\x7b\"parameters\":\x7b\"animationCustom\":\x7b\"animatedParts\":" ++
      ("\x7b\"parts\":\x7b\"D_2\":[],\"D_1\":\x7b\"properties\":\x7b\"centered\":false," ++
      ("\"image\":\"/sign.png?replace\",\"offset\":[0.0,0.0],\"transformationGroups\":[]" ++
      "\x7d\x7d\x7d\x7d\x7d\x7d,\"name\":\"perfectlygenericitem\",\"count\":1\x7d"))
    let d : Drawable := ⟨"/sign.png", "?replace", 0, 0⟩
    let a : Mosaic := ⟨[d], 32, 8, .ofInt 0, .ofInt 0⟩
    let b : Mosaic := ⟨[d, d], 64, 8, .ofInt 0, .ofInt 0⟩
    ∃ made, ofText a text none false = .ok made ∧ Json.read text' = some made ∧
      ofText b text' (some "weapon") true = ofText b text (some "weapon") true := by
  intro text text' d a b
  let parts : Members := [("D_2", .array [])]
  let animated : Members := [("parts", .object parts)]
  let animation : Members := [("animatedParts", .object animated)]
  let parameters : Members := [("animationCustom", .object animation)]
  let before : Layers :=
    ⟨[("parameters", .object parameters)], parameters, animation, animated, parts⟩
  have read : Json.read text = some (.object before.root) := by
    rw [Json.read, Json.Document.read, String.toList_append, String.toList_ofList,
      String.toList_ofList]
    cbv
  have opened : before.IsOpen := ⟨.inl rfl, .inl rfl, .inl rfl, .inl rfl⟩
  have made := ofText_of_isOpen read opened a none false
  have document : Json.Document.read text' = some (.object [(some "parameters", .object
      [(some "animationCustom", .object [(some "animatedParts", .object [(some "parts", .object
        [(some "D_2", .array []), (some "D_1", .object [(some "properties", .object
          [(some "centered", .bool false), (some "image", .string (some "/sign.png?replace")),
            (some "offset", .array [.number ⟨false, ['0'], ['0'], none⟩,
              .number ⟨false, ['0'], ['0'], none⟩]),
            (some "transformationGroups", .array [])])])])])])]),
      (some "name", .string (some "perfectlygenericitem")),
      (some "count", .number ⟨false, ['1'], [], none⟩)]) := by
    rw [Json.Document.read]
    simp only [text', String.toList_append]
    repeat rw [String.toList_ofList]
    cbv
  have one : Json.Numeral.value? ⟨false, ['1'], [], none⟩ = some (.integer 1) := by
    have size : Json.Numeral.integer? ⟨false, ['1'], [], none⟩ = some 1 := by decide +kernel
    rw [Json.Numeral.value?, size]
  have zero : Json.Numeral.value? ⟨false, ['0'], ['0'], none⟩ = some (.real (.ofInt 0)) := by
    have real : Json.Numeral.real? ⟨false, ['0'], ['0'], none⟩ = some (.ofInt 0) := by
      decide +kernel
    rw [Json.Numeral.value?, real]
    rfl
  have read' : Json.read text' = some (.object (before.filled a none false).root) := by
    have offset : d.blockX.add a.blockOffsetX = .ofInt 0 ∧
        d.blockY.add a.blockOffsetY = .ofInt 0 := by decide +kernel
    have part_one : part a none d = .object [("properties", .object [
        ("centered", .bool false), ("image", .string "/sign.png?replace"),
        ("offset", .array [.real (.ofInt 0), .real (.ofInt 0)]),
        ("transformationGroups", .array [])])] := by
      rw [part_eq, offset.1, offset.2]
      rfl
    have filled : (before.filled a none false).root = [
        ("parameters", .object [("animationCustom", .object [("animatedParts", .object
          [("parts", .object [("D_2", .array []), ("D_1", part a none d)])])])]),
        ("name", .string "perfectlygenericitem"), ("count", .integer 1)] := rfl
    rw [Json.read, document, filled, part_one]
    simp [Json.Document.value?, Json.Document.valueWithin?, Json.Document.itemsWithin?,
      Json.Document.membersWithin?, Json.Document.nestingLimit, Members.insert,
      one, zero]
  exact ⟨_, made, read', (ofText_over_made (by decide) (.inl rfl) made read').1⟩

end Recolor.Descriptor
