import Recolor.Item.Command
import Recolor.Proofs.Attempt
import Recolor.Proofs.Json.Texts

namespace Recolor

def Text.withoutSpaces (s : String) : String := String.ofList (s.toList.filter (· != ' '))

theorem Text.withoutSpaces_eq_self {s : String} (h : ' ' ∉ s.toList) : withoutSpaces s = s := by
  have all : ∀ c ∈ s.toList, (c != ' ') = true := fun c hc => by
    simpa using fun space : c = ' ' => h (space ▸ hc)
  rw [withoutSpaces, List.filter_eq_self.mpr all, String.ofList_toList]

def Json.withoutSpaces (j : Json) : Json := j.mapTexts Text.withoutSpaces

namespace Descriptor

open Json (Plain quoted escapeChar isEscaped memberText)

theorem toList_strip (s : String) : (strip s).toList = s.toList.filter fun c => !isStripped c :=
  String.toList_ofList

theorem isStripped_of_mem_strip {s : String} {c : Char} (h : c ∈ (strip s).toList) :
    isStripped c = false := by
  rw [toList_strip, List.mem_filter] at h
  simpa using h.2

theorem strip_append (s t : String) : strip (s ++ t) = strip s ++ strip t := by
  apply String.toList_inj.mp
  simp only [toList_strip, String.toList_append, List.filter_append]

theorem strip_eq_self {s : String} (h : ∀ c ∈ s.toList, isStripped c = false) : strip s = s := by
  apply String.toList_inj.mp
  rw [toList_strip, List.filter_eq_self]
  intro c hc
  rw [h c hc]
  rfl

theorem strip_intercalate (mark : String) (texts : List String) :
    strip (mark.intercalate texts) = (strip mark).intercalate (texts.map strip) := by
  induction texts with
  | nil => rfl
  | cons text texts ih =>
    cases texts with
    | nil => rfl
    | cons next texts =>
      simp only [List.map_cons, String.intercalate_cons_cons, strip_append] at ih ⊢
      rw [ih]

theorem isStripped_of_isEscape {c : Char} (h : Json.isEscape c = true) : isStripped c = false := by
  simp only [isStripped, Bool.or_eq_false_iff, beq_eq_false_iff_ne]
  refine ⟨⟨?_, ?_⟩, ?_⟩ <;> rintro rfl <;> exact absurd h (by decide)

theorem strip_of_plain {s : String} (h : Plain s) : strip s = s :=
  strip_eq_self fun c hc => isStripped_of_isEscape (by simp [Json.isEscape, h c hc])

theorem filter_escapeChar (c : Char) :
    (escapeChar c).filter (fun d => !isStripped d) = if c != ' ' then escapeChar c else [] := by
  cases escaped : isEscaped c with
  | true =>
    have space : (c != ' ') = true := by
      simpa using fun space : c = ' ' => absurd (space ▸ escaped) (by decide)
    rw [if_pos space, List.filter_eq_self]
    intro d hd
    rw [isStripped_of_isEscape (Json.isEscape_of_mem_escapeChar escaped hd)]
    rfl
  | false =>
    -- A line break would be escaped, so of what is stripped only a space can stand for itself.
    have feed : c ≠ '\n' := fun feed => absurd (feed ▸ escaped) (by decide)
    have carriage : c ≠ '\r' := fun carriage => absurd (carriage ▸ escaped) (by decide)
    rw [Json.escapeChar_of_not_isEscaped escaped]
    by_cases space : c = ' ' <;> simp [isStripped, feed, carriage, space]

theorem strip_quoted (s : String) : strip (quoted s) = quoted (Text.withoutSpaces s) := by
  have escapes (cs : List Char) : (cs.flatMap escapeChar).filter (fun d => !isStripped d) =
      (cs.filter (· != ' ')).flatMap escapeChar := by
    induction cs with
    | nil => rfl
    | cons c cs ih =>
      rw [List.flatMap_cons, List.filter_append, ih, filter_escapeChar, List.filter_cons]
      split
      · rw [List.flatMap_cons]
      · rfl
  have inside : strip (String.ofList (s.toList.flatMap escapeChar)) =
      String.ofList ((Text.withoutSpaces s).toList.flatMap escapeChar) := by
    rw [strip, String.toList_ofList, escapes, Text.withoutSpaces, String.toList_ofList]
  rw [quoted, strip_append, strip_append, inside]
  rfl

theorem strip_compact (j : Json) : strip j.compact = j.withoutSpaces.compact := by
  unfold Json.withoutSpaces
  induction j using Json.induct with
  | null => rfl
  | bool b => cases b <;> rfl
  | integer i => exact strip_of_plain (Plain.intRepr i)
  | real x => exact strip_of_plain (Plain.realText x)
  | string s => exact strip_quoted s
  | array items ih =>
    rw [Json.mapTexts_array, Json.compact_array, Json.compact_array, strip_append, strip_append,
      strip_intercalate, List.map_map, List.map_map]
    exact congrArg (fun texts => "[" ++ ",".intercalate texts ++ "]") (List.map_congr_left ih)
  | object ms ih =>
    rw [Json.mapTexts_object, Json.compact_object, Json.compact_object, strip_append, strip_append,
      strip_intercalate, List.map_map, List.map_map]
    have each : ∀ m ∈ ms, strip (memberText m) =
        memberText (Text.withoutSpaces m.1, m.2.mapTexts Text.withoutSpaces) := fun m hm => by
      rw [memberText, strip_append, strip_append, strip_quoted, ih m hm]
      rfl
    exact congrArg (fun texts => "\x7b" ++ ",".intercalate texts ++ "\x7d")
      (List.map_congr_left each)

def parameters (descriptor : Json) : Json := (member? "parameters" descriptor).getD (.object [])

theorem commandParameters_eq (descriptor : Json) :
    commandParameters descriptor = (parameters descriptor).compact := by
  unfold commandParameters parameters
  cases member? "parameters" descriptor <;> rfl

theorem command_eq_ok_iff {descriptor : Json} {text : String} :
    command descriptor = .ok text ↔ ∃ name, commandName descriptor = .ok name ∧
      text = "/spawnitem " ++ name ++ " 1 '" ++ (parameters descriptor).withoutSpaces.compact ++
        "'" := by
  rw [command, Attempt.bind_eq_ok_iff, commandParameters_eq, strip_compact]
  constructor
  · rintro ⟨name, hname, ⟨⟩⟩
    exact ⟨name, hname, rfl⟩
  · rintro ⟨name, hname, rfl⟩
    exact ⟨name, hname, rfl⟩

theorem command_strips_texts {descriptor p : Json} {text : String}
    (h : command descriptor = .ok text) (hp : member? "parameters" descriptor = some p) :
    ∃ name, commandName descriptor = .ok name ∧
      text = "/spawnitem " ++ name ++ " 1 '" ++ p.withoutSpaces.compact ++ "'" ∧
      p.withoutSpaces.texts = p.texts.map Text.withoutSpaces ∧
      ((∀ s ∈ p.texts, ' ' ∉ s.toList) → p.withoutSpaces = p) := by
  obtain ⟨name, hname, htext⟩ := command_eq_ok_iff.mp h
  rw [parameters, hp, Option.getD_some] at htext
  refine ⟨name, hname, htext, p.texts_mapTexts _, fun spaceless => ?_⟩
  exact Json.mapTexts_eq_self fun s hs => Text.withoutSpaces_eq_self (spaceless s hs)

theorem command_strips_texts_of_spaced :
    let p : Json := .object [("a b", .array [.string "c d\n", .integer 1])]
    let descriptor : Json := .object [("name", .string "e f"), ("parameters", p)]
    let text := "/spawnitem e f 1 '\x7b\"ab\":[\"cd\\n\",1]\x7d'"
    command descriptor = .ok text ∧ member? "parameters" descriptor = some p ∧
      text = "/spawnitem " ++ "e f" ++ " 1 '" ++ p.withoutSpaces.compact ++ "'" ∧
      p.withoutSpaces.texts = ["ab", "cd\n"] := by
  intro p descriptor text
  have made : command descriptor = .ok text := by decide +kernel
  have found : member? "parameters" descriptor = some p := rfl
  obtain ⟨name, named, written, texts, -⟩ := command_strips_texts made found
  cases named
  exact ⟨made, found, written, texts⟩

end Descriptor

end Recolor
