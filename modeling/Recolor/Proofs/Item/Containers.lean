import Recolor.Proofs.Item.Layers

namespace Recolor.Descriptor

open Json (Members)

variable {m : Mosaic} {group : Option String} {withIcon : Bool} {fault : DescriptorFault}

def way : List String := ["parameters", "animationCustom", "animatedParts", "parts"]

inductive Blocks : List String → Members → String → Prop where
  | here {key : String} {keys : List String} {ms : Members} {value : Json}
      (there : ms.get? key = some value) (other : ∀ inner, value ≠ .object inner) :
      Blocks (key :: keys) ms key
  | deeper {key blocked : String} {keys : List String} {ms inner : Members}
      (there : ms.get? key = some (.object inner)) (blocks : Blocks keys inner blocked) :
      Blocks (key :: keys) ms blocked

inductive Unfit : Json → DescriptorFault → Prop where
  | root {value : Json} (other : ∀ ms, value ≠ .object ms) : Unfit value .root
  | container {ms : Members} {key : String} (blocks : Blocks way ms key) :
      Unfit (.object ms) (.container key)

def walk : List String → Members → Except DescriptorFault Members
  | [], ms => .ok ms
  | key :: keys, ms => container key ms >>= walk keys

theorem container_eq_error_iff {key : String} {ms : Members} :
    container key ms = .error fault ↔
      (∃ value, ms.get? key = some value ∧ ∀ inner, value ≠ .object inner) ∧
        fault = .container key := by
  unfold container
  split
  · next none => simp [none]
  · next inner object => simp [object]
  · next value other there =>
    constructor
    · rintro ⟨⟩
      exact ⟨⟨value, there, other⟩, rfl⟩
    · rintro ⟨-, rfl⟩
      rfl

theorem walk_nil (keys : List String) : walk keys [] = .ok [] := by
  induction keys with
  | nil => rfl
  | cons key keys ih => exact ih

theorem walk_eq_error_iff {keys : List String} {ms : Members} :
    walk keys ms = .error fault ↔ ∃ key, Blocks keys ms key ∧ fault = .container key := by
  induction keys generalizing ms with
  | nil =>
    refine ⟨nofun, ?_⟩
    rintro ⟨key, ⟨⟩, -⟩
  | cons key keys ih =>
    rw [walk, Attempt.bind_eq_error_iff, container_eq_error_iff]
    simp only [container_eq_ok_iff]
    constructor
    · rintro (⟨⟨value, there, other⟩, rfl⟩ | ⟨inner, object | ⟨-, rfl⟩, fails⟩)
      · exact ⟨key, .here there other, rfl⟩
      · obtain ⟨blocked, blocks, rfl⟩ := ih.mp fails
        exact ⟨blocked, .deeper object blocks, rfl⟩
      · cases (walk_nil keys).symm.trans fails
    · rintro ⟨blocked, blocks, rfl⟩
      cases blocks with
      | here there other => exact .inl ⟨⟨_, there, other⟩, rfl⟩
      | deeper there blocks => exact .inr ⟨_, .inl there, ih.mpr ⟨blocked, blocks, rfl⟩⟩

theorem container_parameters_named (root : Members) :
    container "parameters"
        ((root.insertIfNew "name" (.string defaultName)).insertIfNew "count" (.integer 1)) =
      container "parameters" root := by
  have unnamed : Members.get? "parameters"
      ((root.insertIfNew "name" (.string defaultName)).insertIfNew "count" (.integer 1)) =
        root.get? "parameters" :=
    Layers.get?_named (l := ⟨root, [], [], [], []⟩) (by decide) (by decide)
  rw [container, unnamed, container]

theorem addTo_eq_error_iff {root : Members} :
    addTo root m group withIcon = .error fault ↔
      ∃ key, Blocks way root key ∧ fault = .container key := by
  rw [← walk_eq_error_iff]
  simp only [addTo, container_parameters_named, way, walk, Attempt.bind_eq_error_iff, pure,
    Except.pure, reduceCtorEq, and_false, exists_false, or_false]

theorem ofValue_eq_error_iff {value : Json} :
    ofValue m value group withIcon = .error fault ↔ Unfit value fault := by
  cases value with
  | object root =>
    rw [ofValue, Attempt.map_eq_error_iff, addTo_eq_error_iff]
    constructor
    · rintro ⟨key, blocks, rfl⟩
      exact .container blocks
    · rintro (other | blocks)
      · exact absurd rfl (other root)
      · exact ⟨_, blocks, rfl⟩
  | _ =>
    constructor
    · rintro ⟨⟩
      exact .root (by simp)
    · rintro ⟨⟩
      rfl

theorem ofText_eq_error_iff {text : String} {e : DescriptorError} :
    ofText m text group withIcon = .error e ↔
      (Json.read text = none ∧ e = .unreadable) ∨
        ∃ value fault, Json.read text = some value ∧ Unfit value fault ∧ e = .invalid fault := by
  unfold ofText
  cases Json.read text with
  | none => simp [eq_comm]
  | some value =>
    simp only [Attempt.mapError_eq_error_iff, ofValue_eq_error_iff, reduceCtorEq, false_and,
      false_or, Option.some.injEq, exists_and_left, exists_eq_left']
    exact exists_congr fun fault => and_congr_right fun _ => eq_comm

end Recolor.Descriptor
