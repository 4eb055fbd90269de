import Recolor.Proofs.Item.Layers

namespace Recolor.Descriptor

variable {m : Mosaic} {group : Option String} {withIcon : Bool}

def Usable (text : String) : Prop :=
  ∃ before : Layers, Json.read text = some (.object before.root) ∧ before.IsOpen

theorem usable_of_ofText {text : String} {descriptor : Json}
    (h : ofText m text group withIcon = .ok descriptor) : Usable text := by
  cases hread : Json.read text with
  | none => simp [ofText, hread] at h
  | some value =>
    cases value with
    | object root =>
      obtain ⟨before, rfl, opened, -⟩ := (ofText_eq_ok_iff hread).mp h
      exact ⟨before, hread, opened⟩
    | _ =>
      rw [ofText, hread] at h
      cases Attempt.mapError_eq_ok_iff.mp h

def bare : Mosaic := ⟨[], 0, 0, .ofInt 0, .ofInt 0⟩

def acceptsChars (cs : List Char) : Bool :=
  match (Json.Document.readChars cs).bind Json.Document.value? with
  | none => false
  | some value => (ofValue bare value none false).toBool

theorem usable_of_acceptsChars {text : String} (h : acceptsChars text.toList = true) :
    Usable text := by
  change (match Json.read text with | none => false | some value => _) = true at h
  cases hread : Json.read text with
  | none => simp [hread] at h
  | some value =>
    cases hmade : ofValue bare value none false with
    | error fault => simp [hread, hmade, Except.toBool] at h
    | ok descriptor =>
      have made : ofText bare text none false = .ok descriptor := by
        rw [ofText, hread, Attempt.mapError_eq_ok_iff, hmade]
      exact usable_of_ofText made

def Describes (text : String) : Prop :=
  ∃ root parameters : Json.Members, Json.read text = some (.object root) ∧
    root.get? "parameters" = some (.object parameters) ∧ "shortdescription" ∈ parameters.keys

def describesChars (cs : List Char) : Bool :=
  match (Json.Document.readChars cs).bind Json.Document.value? with
  | some (.object root) =>
    match Json.Members.get? "parameters" root with
    | some (.object parameters) => (Json.Members.keys parameters).contains "shortdescription"
    | _ => false
  | _ => false

theorem describes_of_describesChars {text : String} (h : describesChars text.toList = true) :
    Describes text := by
  unfold describesChars at h
  split at h
  · next root read =>
    split at h
    · next parameters there => exact ⟨root, parameters, read, there, by simpa using h⟩
    · cases h
  · cases h

theorem template_checks (p : Preset) :
    (acceptsChars p.template.toList && describesChars p.template.toList) = true := by
  cases p
  -- The literals become lists one by one: decoding the text as a whole would be slow.
  all_goals
    unfold Preset.template Preset.itemName Preset.shortDescription Preset.partNames
    simp only [String.toList_append, String.toList_intercalate, List.map_cons, List.map_nil,
      Preset.partLine]
    repeat rw [String.toList_ofList]
    decide +kernel

theorem usable_template (p : Preset) : Usable p.template :=
  usable_of_acceptsChars (Bool.and_eq_true_iff.mp (template_checks p)).1

theorem describes_template (p : Preset) : Describes p.template :=
  describes_of_describesChars (Bool.and_eq_true_iff.mp (template_checks p)).2

theorem exists_stamp_object (p : Preset) (members : Json.Members) :
    ∃ stamped, stamp p (.object members) = .object stamped := by
  simp only [stamp]
  split <;> exact ⟨_, rfl⟩

variable (m group withIcon)

theorem render_of_usable (template : Template) (h : Usable template.text) :
    ∃ members, render m template group withIcon = .ok (.object members) := by
  obtain ⟨before, hread, opened⟩ := h
  have made := ofText_of_isOpen hread opened m group withIcon
  cases template with
  | preset p =>
    obtain ⟨stamped, hstamp⟩ := exists_stamp_object p (before.filled m group withIcon).root
    refine ⟨stamped, ?_⟩
    change ofText m p.template group withIcon = _ at made
    change (ofText m p.template group withIcon).map (stamp p) = _
    rw [made, ← hstamp]
    rfl
  | custom text => exact ⟨_, made⟩

end Recolor.Descriptor
