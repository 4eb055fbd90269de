import Recolor.Chain
import Recolor.Proofs.Color.RoundTrip
import Recolor.Proofs.Text.Separator

namespace Recolor

namespace Replacement

def body (r : Replacement) : List Char := r.key.hexDigits ++ '=' :: r.value.hexDigits

theorem toList_group (r : Replacement) : r.group.toList = ';' :: r.body := by
  simp [group, body, Color.hex]

theorem semicolon_not_mem_body (r : Replacement) : ';' ∉ r.body := by
  intro h
  rcases List.mem_append.mp h with h | h
  · exact (Text.ne_of_isHexDigit (Color.isHexDigit_of_mem_hexDigits h)).2.1 rfl
  · rcases List.mem_cons.mp h with h | h
    · exact absurd h (by decide)
    · exact (Text.ne_of_isHexDigit (Color.isHexDigit_of_mem_hexDigits h)).2.1 rfl

end Replacement

namespace Chain

theorem toList_text (entries : List Replacement) :
    (text entries).toList = operator.toList ++ entries.flatMap fun r => ';' :: r.body := by
  simp only [text, String.toList_append, String.toList_join, List.flatMap_map,
    Replacement.toList_group]

theorem splitOn_flatMap {first : List Char} {bodies : List (List Char)} (h : ';' ∉ first)
    (each : ∀ body ∈ bodies, ';' ∉ body) :
    (first ++ bodies.flatMap (';' :: ·)).splitOn ';' = first :: bodies := by
  induction bodies generalizing first with
  | nil => simpa using List.splitOn_eq_singleton h
  | cons body bodies ih =>
    rw [List.flatMap_cons, List.cons_append, List.splitOn_append_cons_self_of_not_mem h,
      ih (each body List.mem_cons_self) fun other hother =>
        each other (List.mem_cons_of_mem body hother)]

theorem pieces_flatMap {first : List Char} {bodies : List (List Char)} (h : ';' ∉ first)
    (each : ∀ body ∈ bodies, ';' ∉ body) :
    pieces (first ++ bodies.flatMap (';' :: ·)) = bodies := by
  rw [pieces, splitOn_flatMap h each, List.tail_cons]

theorem cut_append {separator : Char} {left right : List Char} (h : separator ∉ left) :
    cut separator (left ++ separator :: right) = some (left, right) := by
  rw [cut, Text.span_separator h]

theorem readGroup_body (index : Nat) (r : Replacement) : readGroup index r.body = .ok r := by
  have key : '=' ∉ r.key.hexDigits := fun h =>
    (Text.ne_of_isHexDigit (Color.isHexDigit_of_mem_hexDigits h)).2.2 rfl
  rw [readGroup, Replacement.body, cut_append key]
  simp only [readColor, Color.ofChars_hexDigits]
  rfl

theorem readGroups_bodies (index : Nat) (entries : List Replacement) :
    readGroups index (entries.map Replacement.body) = .ok entries := by
  induction entries generalizing index with
  | nil => rfl
  | cons entry entries ih =>
    rw [List.map_cons, readGroups, readGroup_body, ih]
    rfl

theorem read_of_operator {s : String} {rest : List Char}
    (h : s.toList = operator.toList ++ rest) : read s = readGroups 0 (pieces rest) := by
  rw [read, h, if_pos (by simp), ← String.length_toList, List.drop_left]

theorem read_text (entries : List Replacement) : read (text entries) = .ok entries := by
  have bodies : pieces (entries.flatMap fun r => ';' :: r.body) =
      entries.map Replacement.body := by
    have each : ∀ body ∈ entries.map Replacement.body, ';' ∉ body := by
      simpa using fun r _ => Replacement.semicolon_not_mem_body r
    rw [← pieces_flatMap List.not_mem_nil each, List.nil_append, List.flatMap_map]
  rw [read_of_operator (toList_text entries), bodies, readGroups_bodies]

end Chain

end Recolor
