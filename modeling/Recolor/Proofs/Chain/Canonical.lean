import Recolor.Proofs.Chain.RoundTrip
import Recolor.Proofs.Color.Canonical

namespace Recolor.Chain

inductive Groups : List Char → Prop where
  | nil : Groups []
  | cons {key value rest : List Char} (hk : Color.IsCode key) (hv : Color.IsCode value)
      (hr : Groups rest) : Groups (';' :: (key ++ '=' :: value) ++ rest)

def Canonical (s : String) : Prop := ∃ groups, Groups groups ∧ s.toList = operator.toList ++ groups

theorem Groups.eq_nil_or_last {groups : List Char} (h : Groups groups) :
    groups = [] ∨ ∃ before key value, Color.IsCode key ∧ Color.IsCode value ∧
      groups = before ++ key ++ '=' :: value := by
  induction h with
  | nil => exact .inl rfl
  | @cons key value tail hk hv _ ih =>
    rcases ih with rfl | ⟨before, key', value', hk', hv', rfl⟩
    · exact .inr ⟨[';'], key, value, hk, hv, by simp⟩
    · exact .inr ⟨';' :: (key ++ '=' :: value) ++ before, key', value', hk', hv', by simp⟩

theorem groups_bodies (entries : List Replacement) :
    Groups (entries.flatMap fun r => ';' :: r.body) := by
  induction entries with
  | nil => exact .nil
  | cons entry entries ih =>
    exact .cons (Color.isCode_hexDigits entry.key) (Color.isCode_hexDigits entry.value) ih

theorem exists_bodies {groups : List Char} (h : Groups groups) :
    ∃ entries : List Replacement, (entries.flatMap fun r => ';' :: r.body) = groups := by
  induction h with
  | nil => exact ⟨[], rfl⟩
  | cons hk hv _ ih =>
    obtain ⟨key, rfl⟩ := Color.exists_hexDigits hk
    obtain ⟨value, rfl⟩ := Color.exists_hexDigits hv
    obtain ⟨entries, rfl⟩ := ih
    exact ⟨⟨key, value⟩ :: entries, rfl⟩

theorem canonical_text (entries : List Replacement) : Canonical (text entries) :=
  ⟨_, groups_bodies entries, toList_text entries⟩

theorem exists_text {s : String} (h : Canonical s) : ∃ entries, text entries = s := by
  obtain ⟨groups, hg, hs⟩ := h
  obtain ⟨entries, rfl⟩ := exists_bodies hg
  refine ⟨entries, String.toList_inj.mp ?_⟩
  rw [toList_text, hs]

theorem read_text_and_canonical_iff :
    (∀ entries, read (text entries) = .ok entries) ∧
      ∀ s, Canonical s ↔ ∃ entries, read s = .ok entries ∧ text entries = s := by
  refine ⟨read_text, fun s => ⟨fun canonical => ?_, ?_⟩⟩
  · obtain ⟨entries, rfl⟩ := exists_text canonical
    exact ⟨entries, read_text entries, rfl⟩
  · rintro ⟨entries, -, rfl⟩
    exact canonical_text entries

end Recolor.Chain
