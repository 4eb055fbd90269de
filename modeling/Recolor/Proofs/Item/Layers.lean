import Recolor.Proofs.Attempt
import Recolor.Proofs.Item.Parts

namespace Recolor.Descriptor

open Json (Members)
open Json.Members (Extends)

variable {m : Mosaic} {group : Option String} {withIcon : Bool}

def Holds (ms : Members) (key : String) (inner : Members) : Prop :=
  ms.get? key = some (.object inner) ∨ ms.get? key = none ∧ inner = []

theorem container_eq_ok_iff {key : String} {ms inner : Members} :
    container key ms = .ok inner ↔ Holds ms key inner := by
  unfold container Holds
  split
  · next none => simp [none, eq_comm]
  · next members object => simp [object]
  · next value other hvalue =>
    simp only [hvalue]
    constructor
    · intro h
      cases h
    · rintro (h | ⟨h, -⟩)
      · cases h
        exact absurd rfl (other inner)
      · cases h

theorem Holds.distinct {key : String} {ms inner : Members} (h : Holds ms key inner)
    (hms : Json.Distinct (.object ms)) : Json.Distinct (.object inner) := by
  rcases h with object | ⟨-, rfl⟩
  · exact hms.of_get? object
  · exact .object List.nodup_nil (by simp)

theorem Holds.unique {key : String} {ms inner other : Members} (h : Holds ms key inner)
    (h' : Holds ms key other) : inner = other := by
  rw [← container_eq_ok_iff] at h h'
  exact Except.ok.inj (h.symm.trans h')

structure Layers where
  root : Members
  parameters : Members
  animation : Members
  animated : Members
  parts : Members

namespace Layers

structure IsOpen (l : Layers) : Prop where
  parameters : Holds l.root "parameters" l.parameters
  animation : Holds l.parameters "animationCustom" l.animation
  animated : Holds l.animation "animatedParts" l.animated
  parts : Holds l.animated "parts" l.parts

theorem IsOpen.unique {l l' : Layers} (h : l.IsOpen) (h' : l'.IsOpen) (root : l.root = l'.root) :
    l = l' := by
  have parameters := h.parameters.unique (root ▸ h'.parameters)
  have animation := h.animation.unique (parameters ▸ h'.animation)
  have animated := h.animated.unique (animation ▸ h'.animated)
  have parts := h.parts.unique (animated ▸ h'.parts)
  cases l
  cases l'
  simp_all

structure IsNested (l : Layers) : Prop where
  parameters : l.root.get? "parameters" = some (.object l.parameters)
  animation : l.parameters.get? "animationCustom" = some (.object l.animation)
  animated : l.animation.get? "animatedParts" = some (.object l.animated)
  parts : l.animated.get? "parts" = some (.object l.parts)

def named (l : Layers) : Members :=
  (l.root.insertIfNew "name" (.string defaultName)).insertIfNew "count" (.integer 1)

def filled (l : Layers) (m : Mosaic) (group : Option String) (withIcon : Bool) : Layers :=
  let parts := addParts m group 1 l.parts m.drawables
  let animated := l.animated.insert "parts" (.object parts)
  let animation := l.animation.insert "animatedParts" (.object animated)
  let parameters := l.parameters.insert "animationCustom" (.object animation)
  let parameters := if withIcon then parameters.insert "inventoryIcon" m.iconJson else parameters
  ⟨l.named.insert "parameters" (.object parameters), parameters, animation, animated, parts⟩

theorem get?_named {l : Layers} {key : String} (name : key ≠ "name") (count : key ≠ "count") :
    l.named.get? key = l.root.get? key := by
  rw [named, Members.get?_insertIfNew, if_neg count, Members.get?_insertIfNew, if_neg name]

end Layers

structure Fills (m : Mosaic) (group : Option String) (withIcon : Bool) (before after : Layers) :
    Prop where
  nested : after.IsNested
  root : Extends ["name", "count", "parameters"] before.root after.root
  name : after.root.get? "name" = (before.root.get? "name").or (some (.string defaultName))
  count : after.root.get? "count" = (before.root.get? "count").or (some (.integer 1))
  parameters : Extends ("animationCustom" :: if withIcon then ["inventoryIcon"] else [])
    before.parameters after.parameters
  icon : withIcon = true → after.parameters.get? "inventoryIcon" =
    some (.array (m.icon.map fun entry => .object [
      ("image", .string entry.image),
      ("position", .array [.integer entry.x.toInt, .integer entry.y.toInt])]))
  animation : Extends ["animatedParts"] before.animation after.animation
  animated : Extends ["parts"] before.animated after.animated
  parts : Extends (partNames 1 m.drawables.length) before.parts after.parts
  part : ∀ k d, m.drawables[k]? = some d → after.parts.get? (partName (k + 1)) =
    some (.object [("properties", .object [
      ("centered", .bool false),
      ("image", .string (d.texture ++ d.directives)),
      ("offset", .array [.ofBinary64 (d.blockX.add m.blockOffsetX),
        .ofBinary64 (d.blockY.add m.blockOffsetY)]),
      ("transformationGroups", .array (groupsOf group))])])

theorem fills_filled (before : Layers) (m : Mosaic) (group : Option String) (withIcon : Bool) :
    Fills m group withIcon before (before.filled m group withIcon) where
  nested := by
    refine ⟨?_, ?_, ?_, ?_⟩
    · simp [Layers.filled, Members.get?_insert]
    · cases withIcon <;> simp [Layers.filled, Members.get?_insert]
    · simp [Layers.filled, Members.get?_insert]
    · simp [Layers.filled, Members.get?_insert]
  root := by
    have named : Extends (["name"] ++ ["count"]) before.root before.named :=
      (Extends.of_insertIfNew "name" _ before.root).trans (.of_insertIfNew "count" _ _) (by decide)
    exact named.trans (.of_insert "parameters" _ _) (by decide)
  name := by
    simp [Layers.filled, Layers.named, Members.get?_insert, Members.get?_insertIfNew]
  count := by
    simp [Layers.filled, Layers.named, Members.get?_insert, Members.get?_insertIfNew]
  parameters := by
    have animation := Extends.of_insert "animationCustom"
      (.object (before.filled m group withIcon).animation) before.parameters
    cases withIcon with
    | false => exact animation
    | true => exact animation.trans (.of_insert "inventoryIcon" m.iconJson _) (by decide)
  icon := by
    rintro rfl
    have last : (before.filled m group true).parameters.get? "inventoryIcon" = some m.iconJson := by
      simp [Layers.filled, Members.get?_insert]
    exact last
  animation := .of_insert ..
  animated := .of_insert ..
  parts := extends_addParts 1 before.parts m.drawables
  part k d hd := by
    rw [← part_eq, Nat.add_comm k 1]
    exact get?_addParts 1 before.parts m.drawables k d hd

theorem Layers.IsOpen.nodup_keys {l : Layers} (h : l.IsOpen)
    (distinct : Json.Distinct (.object l.root)) :
    l.root.keys.Nodup ∧ l.parameters.keys.Nodup ∧ l.animation.keys.Nodup ∧
      l.animated.keys.Nodup ∧ l.parts.keys.Nodup := by
  have parameters := h.parameters.distinct distinct
  have animation := h.animation.distinct parameters
  have animated := h.animated.distinct animation
  have parts := h.parts.distinct animated
  exact ⟨distinct.nodup_keys, parameters.nodup_keys, animation.nodup_keys, animated.nodup_keys,
    parts.nodup_keys⟩

theorem Fills.unique {before after other : Layers} (h : Fills m group withIcon before after)
    (h' : Fills m group withIcon before other) (opened : before.IsOpen)
    (distinct : Json.Distinct (.object before.root)) : after = other := by
  obtain ⟨inRoot, inParameters, inAnimation, inAnimated, inParts⟩ := opened.nodup_keys distinct
  have parts : after.parts = other.parts := by
    refine h.parts.unique h'.parts (nodup_partNames _ _) inParts fun name hname => ?_
    obtain ⟨k, hk, rfl⟩ := mem_partNames.mp hname
    have drawable := List.getElem?_eq_getElem hk
    rw [Nat.add_comm 1 k, h.part k _ drawable, h'.part k _ drawable]
  have animated : after.animated = other.animated := by
    refine h.animated.unique h'.animated (by decide) inAnimated fun key hkey => ?_
    rw [List.mem_singleton.mp hkey, h.nested.parts, h'.nested.parts, parts]
  have animation : after.animation = other.animation := by
    refine h.animation.unique h'.animation (by decide) inAnimation fun key hkey => ?_
    rw [List.mem_singleton.mp hkey, h.nested.animated, h'.nested.animated, animated]
  have parameters : after.parameters = other.parameters := by
    have two : ("animationCustom" :: if withIcon then ["inventoryIcon"] else []).Nodup := by
      cases withIcon <;> decide
    refine h.parameters.unique h'.parameters two inParameters fun key hkey => ?_
    rcases List.mem_cons.mp hkey with rfl | hicon
    · rw [h.nested.animation, h'.nested.animation, animation]
    · cases withIcon with
      | false => simp at hicon
      | true =>
        obtain rfl : key = "inventoryIcon" := by simpa using hicon
        rw [h.icon rfl, h'.icon rfl]
  have root : after.root = other.root := by
    refine h.root.unique h'.root (by decide) inRoot fun key hkey => ?_
    simp only [List.mem_cons, List.not_mem_nil, or_false] at hkey
    rcases hkey with rfl | rfl | rfl
    · rw [h.name, h'.name]
    · rw [h.count, h'.count]
    · rw [h.nested.parameters, h'.nested.parameters, parameters]
  cases after
  cases other
  simp_all

theorem addTo_eq_ok_iff {root added : Members} :
    addTo root m group withIcon = .ok added ↔
      ∃ before : Layers, before.root = root ∧ before.IsOpen ∧
        added = (before.filled m group withIcon).root := by
  unfold addTo
  simp only [Attempt.bind_eq_ok_iff, container_eq_ok_iff]
  constructor
  · rintro ⟨parameters, hp, animation, ha, animated, hd, parts, hs, hadded⟩
    cases hadded
    refine ⟨⟨root, parameters, animation, animated, parts⟩, rfl, ⟨?_, ha, hd, hs⟩, rfl⟩
    have same := Layers.get?_named (l := ⟨root, parameters, animation, animated, parts⟩)
      (show "parameters" ≠ "name" by decide) (show "parameters" ≠ "count" by decide)
    rw [Holds, ← same]
    exact hp
  · rintro ⟨before, rfl, opened, rfl⟩
    have same := Layers.get?_named (l := before) (show "parameters" ≠ "name" by decide)
      (show "parameters" ≠ "count" by decide)
    refine ⟨before.parameters, ?_, before.animation, opened.animation, before.animated,
      opened.animated, before.parts, opened.parts, rfl⟩
    have there := opened.parameters
    rw [Holds, ← same] at there
    exact there

theorem ofText_eq_ok_iff {text : String} {root : Members} {descriptor : Json}
    (h : Json.read text = some (.object root)) :
    ofText m text group withIcon = .ok descriptor ↔
      ∃ before : Layers, before.root = root ∧ before.IsOpen ∧
        descriptor = .object (before.filled m group withIcon).root := by
  simp only [ofText, h, ofValue, Attempt.mapError_eq_ok_iff, Attempt.map_eq_ok_iff,
    addTo_eq_ok_iff]
  constructor
  · rintro ⟨_, ⟨before, hroot, opened, rfl⟩, rfl⟩
    exact ⟨before, hroot, opened, rfl⟩
  · rintro ⟨before, hroot, opened, rfl⟩
    exact ⟨_, ⟨before, hroot, opened, rfl⟩, rfl⟩

theorem ofText_of_isOpen {text : String} {before : Layers}
    (read : Json.read text = some (.object before.root)) (opened : before.IsOpen) (m : Mosaic)
    (group : Option String) (withIcon : Bool) :
    ofText m text group withIcon = .ok (.object (before.filled m group withIcon).root) :=
  (ofText_eq_ok_iff read).mpr ⟨before, rfl, opened, rfl⟩

theorem ofText_eq_ok_iff_fills {text : String} {root : Members}
    (h : Json.read text = some (.object root)) (m : Mosaic) (group : Option String)
    (withIcon : Bool) :
    ((∃ descriptor, ofText m text group withIcon = .ok descriptor) ↔
        ∃ before : Layers, before.root = root ∧ before.IsOpen) ∧
      ∀ descriptor, ofText m text group withIcon = .ok descriptor ↔
        ∃ before after : Layers, before.root = root ∧ before.IsOpen ∧
          Fills m group withIcon before after ∧ descriptor = .object after.root := by
  refine ⟨?_, fun descriptor => ?_⟩
  · simp only [ofText_eq_ok_iff h]
    constructor
    · rintro ⟨_, before, hroot, opened, -⟩
      exact ⟨before, hroot, opened⟩
    · rintro ⟨before, hroot, opened⟩
      exact ⟨_, before, hroot, opened, rfl⟩
  · rw [ofText_eq_ok_iff h]
    constructor
    · rintro ⟨before, hroot, opened, rfl⟩
      exact ⟨before, _, hroot, opened, fills_filled before m group withIcon, rfl⟩
    · rintro ⟨before, after, rfl, opened, fills, rfl⟩
      have same : after = before.filled m group withIcon :=
        fills.unique (fills_filled before m group withIcon) opened (Json.distinct_of_read h)
      exact ⟨before, rfl, opened, by rw [same]⟩

theorem ofText_fills_named_null :
    let text := "\x7b\"name\":null,\"parameters\":\x7b\"animationCustom\":" ++
      "\x7b\"animatedParts\":\x7b\"parts\":\x7b\"D_1\":[]\x7d\x7d\x7d\x7d\x7d"
    let parts : Members := [("D_1", .array [])]
    let animated : Members := [("parts", .object parts)]
    let animation : Members := [("animatedParts", .object animated)]
    let parameters : Members := [("animationCustom", .object animation)]
    let root : Members := [("name", .null), ("parameters", .object parameters)]
    let m : Mosaic := ⟨[⟨"/sign.png", "?replace", 0, 0⟩], 32, 8, .ofInt 0, .ofInt 0⟩
    Json.read text = some (.object root) ∧
      ∃ after : Layers, ofText m text (some "weapon") true = .ok (.object after.root) ∧
        after.root.get? "name" = some .null ∧ after.parts.keys = ["D_1"] := by
  intro text parts animated animation parameters root m
  have read : Json.read text = some (.object root) := by
    rw [Json.read, Json.Document.read, String.toList_append, String.toList_ofList,
      String.toList_ofList]
    cbv
  obtain ⟨succeeds, result⟩ := ofText_eq_ok_iff_fills read m (some "weapon") true
  have opened : Layers.IsOpen ⟨root, parameters, animation, animated, parts⟩ :=
    ⟨.inl rfl, .inl rfl, .inl rfl, .inl rfl⟩
  obtain ⟨descriptor, made⟩ := succeeds.mpr ⟨_, rfl, opened⟩
  obtain ⟨before, after, hroot, opened', fills, rfl⟩ := (result descriptor).mp made
  obtain rfl := opened'.unique opened hroot
  refine ⟨read, after, made, ?_, ?_⟩
  · rw [fills.name]
    rfl
  · rw [fills.parts.keys]
    decide

end Recolor.Descriptor
