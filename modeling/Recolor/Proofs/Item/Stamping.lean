import Recolor.Proofs.Item.Containers
import Recolor.Proofs.Item.Usable

namespace Recolor.Descriptor

open Json (Members)
open Json.Members (Replaces)

def assign? (value : Json) : List String → Json → Option Json
  | [], _ => some value
  | key :: path, .object ms =>
    (assign? value path ((Members.get? key ms).getD .null)).map fun inner =>
      .object (Members.insert key inner ms)
  | key :: path, .null => (assign? value path .null).map fun inner => .object [(key, inner)]
  | _ :: _, _ => none

theorem exists_ofText_iff_usable {m : Mosaic} {group : Option String} {withIcon : Bool}
    {text : String} :
    (∃ descriptor, ofText m text group withIcon = .ok descriptor) ↔ Usable text := by
  constructor
  · rintro ⟨descriptor, made⟩
    exact usable_of_ofText made
  · rintro ⟨before, read, opened⟩
    exact ⟨_, ofText_of_isOpen read opened m group withIcon⟩

theorem assign?_name (name : String) (ms : Members) :
    assign? (.string name) ["name"] (.object ms) =
      some (.object (ms.insert "name" (.string name))) :=
  rfl

theorem assign?_description {ms parameters : Members} (description : String)
    (there : ms.get? "parameters" = some (.object parameters)) :
    assign? (.string description) ["parameters", "shortdescription"] (.object ms) =
      some (.object (ms.insert "parameters"
        (.object (parameters.insert "shortdescription" (.string description))))) := by
  rw [assign?, there]
  rfl

theorem stamp_object {p : Preset} {ms parameters : Members}
    (there : ms.get? "parameters" = some (.object parameters)) :
    stamp p (.object ms) = .object ((ms.insert "name" (.string p.itemName)).insert "parameters"
      (.object (parameters.insert "shortdescription" (.string p.shortDescription)))) := by
  have named : (ms.insert "name" (.string p.itemName)).get? "parameters" =
      some (.object parameters) := by
    rw [Members.get?_insert, if_neg (by decide), there]
  simp only [stamp, named, stampParameters]

theorem exists_ofText_template (m : Mosaic) (group : Option String) (withIcon : Bool) (p : Preset) :
    ∃ made parameters : Members, ofText m p.template group withIcon = .ok (.object made) ∧
      "name" ∈ made.keys ∧ made.get? "parameters" = some (.object parameters) ∧
      "shortdescription" ∈ parameters.keys := by
  obtain ⟨before, read, opened⟩ := usable_template p
  obtain ⟨root, parameters, read', there, described⟩ := describes_template p
  cases Option.some.inj (read.symm.trans read')
  cases opened.parameters.unique (.inl there)
  have fills := fills_filled before m group withIcon
  refine ⟨_, _, ofText_of_isOpen read opened m group withIcon, ?_, fills.nested.parameters, ?_⟩
  · have name := fills.name
    cases there : before.root.get? "name" with
    | none => exact Members.mem_keys_of_get? (there ▸ name)
    | some value => exact Members.mem_keys_of_get? (there ▸ name)
  · rw [fills.parameters.keys]
    exact List.mem_append_left _ described

theorem ofText_unfit_and_render_stamps (m : Mosaic) (group : Option String) (withIcon : Bool) :
    (∀ text e, ofText m text group withIcon = .error e ↔
      (Json.read text = none ∧ e = .unreadable) ∨
        ∃ value fault, Json.read text = some value ∧ Unfit value fault ∧ e = .invalid fault) ∧
    (∀ text m' group' withIcon', (∃ descriptor, ofText m text group withIcon = .ok descriptor) ↔
      ∃ descriptor, ofText m' text group' withIcon' = .ok descriptor) ∧
    (∀ text, render m (.custom text) group withIcon = ofText m text group withIcon) ∧
    ∀ p : Preset, ∃ made named stamped parameters described : Members,
      ofText m p.template group withIcon = .ok (.object made) ∧
      render m (.preset p) group withIcon = .ok (.object stamped) ∧
      Replaces "name" (.string p.itemName) made named ∧
      named.get? "parameters" = some (.object parameters) ∧
      Replaces "shortdescription" (.string p.shortDescription) parameters described ∧
      Replaces "parameters" (.object described) named stamped ∧
      (assign? (.string p.itemName) ["name"] (.object made)).bind
          (assign? (.string p.shortDescription) ["parameters", "shortdescription"]) =
        some (.object stamped) := by
  refine ⟨fun text e => ofText_eq_error_iff, fun text m' group' withIcon' => ?_, fun _ => rfl,
    fun p => ?_⟩
  · rw [exists_ofText_iff_usable, exists_ofText_iff_usable]
  · obtain ⟨made, parameters, hmade, name, there, description⟩ :=
      exists_ofText_template m group withIcon p
    have named := Members.replaces_insert (.string p.itemName) name
    have kept : (made.insert "name" (.string p.itemName)).get? "parameters" =
        some (.object parameters) := by
      rw [named.others _ (by decide), there]
    have rendered : render m (.preset p) group withIcon = _ :=
      (congrArg (Except.map (stamp p)) hmade).trans (congrArg Except.ok (stamp_object there))
    refine ⟨made, _, _, parameters, _, hmade, rendered, named, kept,
      Members.replaces_insert _ description,
      Members.replaces_insert _ (Members.mem_keys_of_get? kept), ?_⟩
    rw [assign?_name, Option.bind_some, assign?_description _ kept]

end Recolor.Descriptor
