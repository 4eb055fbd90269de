import Recolor.Item.Descriptor
import Recolor.Proofs.Json.Distinct

namespace Recolor.Descriptor

open Json (Members)
open Json.Members (Extends)

variable {m : Mosaic} {group : Option String}

theorem partName_injective {i j : Nat} (h : partName i = partName j) : i = j := by
  have digits : Nat.toDigits 10 i = Nat.toDigits 10 j :=
    String.ofList_injective ((String.append_right_inj "D_").mp h)
  have value (n : Nat) : Nat.ofDigitChars 10 (Nat.toDigits 10 n) 0 = n :=
    Nat.ofDigitChars_toDigits (by decide) (by decide)
  rw [← value i, digits, value]

def partNames (ordinal count : Nat) : List String := (List.range' ordinal count).map partName

theorem nodup_partNames (ordinal count : Nat) : (partNames ordinal count).Nodup := by
  unfold partNames List.Nodup
  rw [List.pairwise_map]
  exact (List.nodup_range' 1).imp fun differ same => differ (partName_injective same)

theorem mem_partNames {ordinal count : Nat} {name : String} :
    name ∈ partNames ordinal count ↔ ∃ k, k < count ∧ partName (ordinal + k) = name := by
  simp only [partNames, List.mem_map, List.mem_range'_1]
  constructor
  · rintro ⟨i, ⟨least, most⟩, rfl⟩
    exact ⟨i - ordinal, by omega, by rw [Nat.add_sub_cancel' least]⟩
  · rintro ⟨k, hk, rfl⟩
    exact ⟨ordinal + k, by omega, rfl⟩

theorem partNames_succ (ordinal count : Nat) :
    partNames ordinal (count + 1) = [partName ordinal] ++ partNames (ordinal + 1) count := by
  rw [partNames, List.range'_succ, List.map_cons, partNames, List.singleton_append]

theorem extends_addParts (ordinal : Nat) (parts : Members) (ds : List Drawable) :
    Extends (partNames ordinal ds.length) parts (addParts m group ordinal parts ds) := by
  induction ds generalizing ordinal parts with
  | nil => exact .refl parts
  | cons d ds ih =>
    rw [List.length_cons, partNames_succ, addParts]
    refine (Extends.of_insert _ _ parts).trans (ih (ordinal + 1) _) ?_
    intro name hname
    obtain ⟨k, -, rfl⟩ := mem_partNames.mp hname
    rw [List.mem_singleton]
    intro same
    have := partName_injective same
    omega

theorem get?_addParts (ordinal : Nat) (parts : Members) (ds : List Drawable) (k : Nat)
    (d : Drawable) (h : ds[k]? = some d) :
    (addParts m group ordinal parts ds).get? (partName (ordinal + k)) = some (part m group d) := by
  induction ds generalizing ordinal parts k with
  | nil => simp at h
  | cons first ds ih =>
    rw [addParts]
    cases k with
    | zero =>
      obtain rfl : first = d := by simpa using h
      have others : partName ordinal ∉ partNames (ordinal + 1) ds.length := by
        intro hname
        obtain ⟨k, -, same⟩ := mem_partNames.mp hname
        have := partName_injective same
        omega
      rw [Nat.add_zero, (extends_addParts (ordinal + 1) _ ds).others _ others,
        Members.get?_insert, if_pos rfl]
    | succ k =>
      have next : ordinal + (k + 1) = ordinal + 1 + k := by omega
      rw [next]
      exact ih (ordinal + 1) _ k (by simpa using h)

def groupsOf : Option String → List Json
  | none => []
  | some group => if group = "" then [] else [.string group]

theorem part_eq (m : Mosaic) (group : Option String) (d : Drawable) :
    part m group d =
      .object [("properties", .object [
        ("centered", .bool false),
        ("image", .string (d.texture ++ d.directives)),
        ("offset", .array [.ofBinary64 (d.blockX.add m.blockOffsetX),
          .ofBinary64 (d.blockY.add m.blockOffsetY)]),
        ("transformationGroups", .array (groupsOf group))])] := by
  have groups : groupJson group = .array (groupsOf group) := by
    cases group with
    | none => rfl
    | some group =>
      by_cases h : group = ""
      · simp [groupJson, groupsOf, h]
      · simp [groupJson, groupsOf, h, Option.filter]
  rw [part, groups, Drawable.image]

end Recolor.Descriptor
