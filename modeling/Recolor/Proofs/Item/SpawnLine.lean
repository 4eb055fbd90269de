import Mathlib.Tactic.MkIffOfInductiveProp
import Recolor.Proofs.Item.Stripping
import Recolor.Proofs.Item.Usable

namespace Recolor.Descriptor

@[mk_iff]
structure IsSpawnLine (text : String) : Prop where
  lineFeed : '\n' ∉ text.toList
  carriageReturn : '\r' ∉ text.toList
  spaces : text.toList.count ' ' = 3
  quotes : text.toList.count '\'' = 2

instance (text : String) : Decidable (IsSpawnLine text) :=
  decidable_of_iff' _ (isSpawnLine_iff text)

def spawnLine (name body : String) : String := "/spawnitem " ++ name ++ " 1 '" ++ body ++ "'"

def IsWord (s : String) : Prop := ∀ c ∈ s.toList, isStripped c = false

instance (s : String) : Decidable (IsWord s) := List.decidableBAll _ _

theorem isWord_iff {s : String} :
    IsWord s ↔ '\n' ∉ s.toList ∧ '\r' ∉ s.toList ∧ ' ' ∉ s.toList := by
  have absent {c : Char} (h : IsWord s) (hc : isStripped c = true) : c ∉ s.toList := fun there => by
    cases hc.symm.trans (h c there)
  constructor
  · intro h
    exact ⟨absent h rfl, absent h rfl, absent h rfl⟩
  · rintro ⟨feed, carriage, space⟩ c hc
    simp only [isStripped, Bool.or_eq_false_iff, beq_eq_false_iff_ne]
    refine ⟨⟨?_, ?_⟩, ?_⟩ <;> rintro rfl <;> contradiction

theorem toList_spawnLine (name body : String) : (spawnLine name body).toList =
    "/spawnitem".toList ++ ' ' :: (name.toList ++ ' ' :: ("1".toList ++ ' ' ::
      ("'" ++ body ++ "'").toList)) := by
  have opening : " 1 '".toList = ' ' :: ("1".toList ++ ' ' :: "'".toList) := rfl
  have command : "/spawnitem ".toList = "/spawnitem".toList ++ [' '] := rfl
  simp only [spawnLine, String.toList_append, opening, command, List.append_assoc, List.cons_append,
    List.nil_append]

theorem count_spawnLine (name body : String) (c : Char) : (spawnLine name body).toList.count c =
    (spawnLine "" "").toList.count c + (name.toList.count c + body.toList.count c) := by
  simp only [spawnLine, String.toList_append, List.count_append, String.toList_empty,
    List.count_nil]
  omega

theorem isSpawnLine_spawnLine_iff {name body : String} (h : IsWord body) :
    IsSpawnLine (spawnLine name body) ↔
      IsWord name ∧ '\'' ∉ name.toList ∧ '\'' ∉ body.toList := by
  obtain ⟨feed, carriage, space⟩ := isWord_iff.mp h
  have counted {c : Char} {n : Nat} (hn : (spawnLine "" "").toList.count c = n) :
      (spawnLine name body).toList.count c = n ↔ c ∉ name.toList ∧ c ∉ body.toList := by
    rw [count_spawnLine, hn, Nat.add_eq_left, Nat.add_eq_zero_iff, List.count_eq_zero,
      List.count_eq_zero]
  have missing {c : Char} (hc : (spawnLine "" "").toList.count c = 0) :
      c ∉ (spawnLine name body).toList ↔ c ∉ name.toList ∧ c ∉ body.toList := by
    rw [← counted hc, List.count_eq_zero]
  rw [isSpawnLine_iff, isWord_iff, missing (by decide), missing (by decide), counted (by decide),
    counted (by decide)]
  simp only [feed, carriage, space, not_false_eq_true, and_true, and_assoc]

theorem splitOn_spawnLine {name body : String} (hn : IsWord name) (hb : IsWord body) :
    (spawnLine name body).toList.splitOn ' ' =
      ["/spawnitem".toList, name.toList, "1".toList, ("'" ++ body ++ "'").toList] := by
  have quoted : ' ' ∉ ("'" ++ body ++ "'").toList := by simp [(isWord_iff.mp hb).2.2]
  rw [toList_spawnLine, List.splitOn_append_cons_self_of_not_mem (by decide),
    List.splitOn_append_cons_self_of_not_mem (isWord_iff.mp hn).2.2,
    List.splitOn_append_cons_self_of_not_mem (by decide), List.splitOn_eq_singleton quoted]

theorem isWord_withoutSpaces_compact (j : Json) : IsWord j.withoutSpaces.compact := fun c hc => by
  rw [← strip_compact] at hc
  exact isStripped_of_mem_strip hc

theorem quote_not_mem_withoutSpaces_compact_iff {j : Json} :
    '\'' ∉ j.withoutSpaces.compact.toList ↔ ∀ s ∈ j.texts, '\'' ∉ s.toList := by
  have foreign : Json.isForeign '\'' = true := by decide
  have kept : '\'' ∈ j.withoutSpaces.compact.toList ↔ ∃ s ∈ j.texts, '\'' ∈ s.toList := by
    rw [← Json.mem_compact_iff foreign, ← strip_compact, toList_strip, List.mem_filter]
    exact and_iff_left (by decide)
  simp only [kept, not_exists, not_and]

theorem isSpawnLine_command_iff {descriptor : Json} {text : String}
    (h : command descriptor = .ok text) :
    ∃ name, commandName descriptor = .ok name ∧
      (IsSpawnLine text ↔ IsWord name ∧ '\'' ∉ name.toList ∧
        ∀ s ∈ (parameters descriptor).texts, '\'' ∉ s.toList) ∧
      (IsSpawnLine text → text.toList.splitOn ' ' =
        ["/spawnitem".toList, name.toList, "1".toList,
          ("'" ++ (parameters descriptor).withoutSpaces.compact ++ "'").toList]) := by
  obtain ⟨name, hname, rfl⟩ := command_eq_ok_iff.mp h
  have word := isWord_withoutSpaces_compact (parameters descriptor)
  have line : IsSpawnLine (spawnLine name (parameters descriptor).withoutSpaces.compact) ↔ _ :=
    isSpawnLine_spawnLine_iff word
  rw [quote_not_mem_withoutSpaces_compact_iff] at line
  exact ⟨name, hname, line, fun h => splitOn_spawnLine (line.mp h).1 word⟩

theorem isSpawnLine_command_iff_of_named :
    let descriptor : Json := .object [("name", .string "sword"),
      ("parameters", .object [("a b", .string "c\n")])]
    let text := "/spawnitem sword 1 '\x7b\"ab\":\"c\\n\"\x7d'"
    command descriptor = .ok text ∧ IsSpawnLine text := by
  intro descriptor text
  have made : command descriptor = .ok text := by decide +kernel
  obtain ⟨name, hname, line, -⟩ := isSpawnLine_command_iff made
  cases hname
  refine ⟨made, line.mpr ⟨by decide, by decide, ?_⟩⟩
  decide

theorem command_of_render {m : Mosaic} {group : Option String} {withIcon : Bool} {text : String}
    {root : Json.Members} {name : String} {descriptor : Json}
    (hread : Json.read text = some (.object root)) (hname : root.get? "name" = some (.string name))
    (h : render m (.custom text) group withIcon = .ok descriptor) :
    command descriptor = .ok (spawnLine name (parameters descriptor).withoutSpaces.compact) := by
  obtain ⟨before, rfl, -, rfl⟩ := (ofText_eq_ok_iff hread).mp h
  have named := (fills_filled before m group withIcon).name
  rw [hname, Option.some_or] at named
  refine command_eq_ok_iff.mpr ⟨name, ?_, rfl⟩
  rw [commandName, member?, named]

theorem not_isSpawnLine_of_raw_name_or_quote :
    (∃ descriptor line,
      render bare (.custom "\x7b\"name\":\"a b\"\x7d") none false = .ok descriptor ∧
        command descriptor = .ok line ∧ ¬ IsSpawnLine line) ∧
      (∃ line, command (.object [("name", .string "a\nb")]) = .ok line ∧ '\n' ∈ line.toList) ∧
      ∃ line, command (.object [("parameters", .object [("d", .string "it's")])]) = .ok line ∧
        line.toList.count '\'' = 3 := by
  refine ⟨?_, ⟨"/spawnitem a\nb 1 '\x7b\x7d'", by decide +kernel, by decide⟩,
    ⟨"/spawnitem perfectlygenericitem 1 '\x7b\"d\":\"it's\"\x7d'", by decide +kernel, by decide⟩⟩
  have read : Json.read "\x7b\"name\":\"a b\"\x7d" = some (.object [("name", .string "a b")]) := by
    rw [Json.read, Json.Document.read, String.toList_ofList]
    cbv
  have usable : Usable "\x7b\"name\":\"a b\"\x7d" :=
    ⟨⟨_, [], [], [], []⟩, read, .inr ⟨rfl, rfl⟩, .inr ⟨rfl, rfl⟩, .inr ⟨rfl, rfl⟩, .inr ⟨rfl, rfl⟩⟩
  obtain ⟨members, rendered⟩ := render_of_usable bare none false (.custom _) usable
  have word := isWord_withoutSpaces_compact (parameters (.object members))
  refine ⟨_, _, rendered, command_of_render read rfl rendered, fun line => ?_⟩
  exact absurd ((isSpawnLine_spawnLine_iff word).mp line).1 (by decide)

end Recolor.Descriptor
