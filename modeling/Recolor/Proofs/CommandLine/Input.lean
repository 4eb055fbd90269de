import Recolor.CommandLine.Reader
import Recolor.Proofs.Attempt

namespace Recolor

open Attempt

structure Given.IsInvariant (P : Given → Prop) : Prop where
  start : P Given.none
  accept : ∀ {g g' : Given} {s : Setting} {value : String}, P g → g.accept s value = .ok g' → P g'
  turnOn : ∀ {g g' : Given} {s : Switch}, P g → g.turnOn s = .ok g' → P g'
  acceptInput : ∀ {g g' : Given} {value : String}, P g → g.acceptInput value = .ok g' → P g'

namespace Reading

variable {P : Given → Prop} {r r' : Reading} {scope : Scope} {verb : Verb} {word : String}

theorem endWith_ne_ok {e : UsageError} : r.endWith e ≠ .ok r' := by
  intro h
  obtain ⟨settled, -, ⟨⟩⟩ := bind_eq_ok_iff.mp h

variable (keeps : Given.IsInvariant P)

include keeps

theorem settle_keeps (hr : P r.given) (h : r.settle = .ok r') : P r'.given := by
  unfold settle at h
  split at h
  · cases h
    exact hr
  · cases h
  · obtain ⟨given, taken, rfl⟩ := map_eq_ok_iff.mp h
    exact keeps.accept hr taken
  · obtain ⟨given, taken, rfl⟩ := map_eq_ok_iff.mp h
    exact keeps.acceptInput hr taken

theorem giveValue_keeps {s : Setting} {value : String} (hr : P r.given)
    (h : r.giveValue s value = .ok r') : P r'.given := by
  obtain ⟨settled, hsettle, h⟩ := bind_eq_ok_iff.mp h
  obtain ⟨given, taken, ⟨⟩⟩ := bind_eq_ok_iff.mp h
  exact keeps.accept (settle_keeps keeps hr hsettle) taken

theorem awaitValue_keeps {s : Setting} (hr : P r.given) (h : r.awaitValue s = .ok r') :
    P r'.given := by
  obtain ⟨settled, hsettle, ⟨⟩⟩ := bind_eq_ok_iff.mp h
  have kept := settle_keeps keeps hr hsettle
  exact kept

theorem turnOn_keeps {s : Switch} (hr : P r.given) (h : r.turnOn s = .ok r') : P r'.given := by
  obtain ⟨settled, hsettle, h⟩ := bind_eq_ok_iff.mp h
  obtain ⟨given, taken, ⟨⟩⟩ := bind_eq_ok_iff.mp h
  exact keeps.turnOn (settle_keeps keeps hr hsettle) taken

theorem readLong_keeps {body : List Char} (hr : P r.given) (h : r.readLong scope body = .ok r') :
    P r'.given := by
  unfold readLong at h
  dsimp only at h
  split at h
  · cases h
  · exact giveValue_keeps keeps hr h
  · exact awaitValue_keeps keeps hr h
  · cases h
  · exact turnOn_keeps keeps hr h
  · exact absurd h endWith_ne_ok
  · exact absurd h endWith_ne_ok

theorem readShorts_keeps {letters : List Char} (hr : P r.given)
    (h : r.readShorts scope letters = .ok r') : P r'.given := by
  induction letters generalizing r with
  | nil =>
    cases h
    exact hr
  | cons c cs ih =>
    unfold readShorts at h
    split at h
    · cases h
    · obtain ⟨on, turned, h⟩ := bind_eq_ok_iff.mp h
      exact ih (turnOn_keeps keeps hr turned) h
    · exact absurd h endWith_ne_ok
    · exact absurd h endWith_ne_ok
    · split at h
      · exact awaitValue_keeps keeps hr h
      · exact giveValue_keeps keeps hr h
      · exact giveValue_keeps keeps hr h

theorem placeWord_keeps (hr : P r.given) (h : r.placeWord word = .ok r') : P r'.given := by
  unfold placeWord at h
  split at h
  · cases h
  · obtain ⟨settled, hsettle, ⟨⟩⟩ := bind_eq_ok_iff.mp h
    have kept := settle_keeps keeps hr hsettle
    exact kept

theorem readWord_keeps (hr : P r.given) (h : r.readWord word = .ok r') : P r'.given := by
  unfold readWord at h
  split at h
  · cases h
    exact hr
  · exact placeWord_keeps keeps hr h

theorem readArgument_keeps (hr : P r.given) (h : readArgument verb r word = .ok r') :
    P r'.given := by
  unfold readArgument at h
  split at h
  · exact placeWord_keeps keeps hr h
  · split at h
    · cases h
      exact hr
    · exact readLong_keeps keeps hr h
    · split at h
      · exact readWord_keeps keeps hr h
      · exact readShorts_keeps keeps hr h
    · exact readWord_keeps keeps hr h

theorem foldlM_keeps {words : List String}
    (hr : P r.given) (h : words.foldlM (readArgument verb) r = .ok r') : P r'.given := by
  induction words generalizing r with
  | nil =>
    cases h
    exact hr
  | cons word words ih =>
    rw [List.foldlM_cons] at h
    obtain ⟨next, taken, rest⟩ := bind_eq_ok_iff.mp h
    exact ih (readArgument_keeps keeps hr taken) rest

theorem settledAll_keeps {words : List String} {g : Given}
    (h : settledAll verb words = .ok g) : P g := by
  obtain ⟨read, all, h⟩ := bind_eq_ok_iff.mp h
  obtain ⟨settled, hsettle, ⟨⟩⟩ := bind_eq_ok_iff.mp h
  exact settle_keeps keeps (foldlM_keeps keeps keeps.start all) hsettle

end Reading

namespace Given

variable {g g' : Given} {s : Setting} {value : String}

def ReadsInput (g : Given) : Prop := ∀ p ∈ g.input, ∃ text, p = Path.ofText text

theorem input_set (h : g.set s value = .ok g') : g'.input = g.input := by
  cases s with
  | ignoreColor => cases h; rfl
  | texture => cases h; rfl
  | group => cases h; rfl
  | _ =>
    obtain ⟨_, -, rfl⟩ := map_eq_ok_iff.mp h
    rfl

theorem readsInput_isInvariant : IsInvariant ReadsInput where
  start := nofun
  accept := by
    intro g g' s value hg h
    unfold accept at h
    split at h
    · cases h
    · rwa [ReadsInput, input_set h]
  turnOn := by
    intro g g' s hg h
    unfold turnOn at h
    split at h
    · cases h
    · cases h
      exact hg
  acceptInput := by
    intro g g' value hg h
    obtain ⟨path, read, rfl⟩ := map_eq_ok_iff.mp h
    unfold Value.path at read
    split at read
    · cases read
    · cases read
      rintro p ⟨⟩
      exact ⟨value, rfl⟩

theorem input_of_source {a : SourceArguments} (h : g.source = .ok a) : g.input = some a.input := by
  unfold source at h
  split at h
  · cases h
  · split at h
    · cases h
    · next input given =>
      cases h
      exact given

end Given

namespace CommandLine

variable {r : Reading} {words : List String} {i : Invocation}

theorem exists_text_of_readCommand {verb : Verb} (h : readCommand r verb words = .ok i) :
    ∃ text, i.source.input = Path.ofText text := by
  obtain ⟨given, settled, h⟩ := bind_eq_ok_iff.mp h
  obtain ⟨source, made, h⟩ := bind_eq_ok_iff.mp h
  obtain ⟨_, -, ⟨⟩⟩ := bind_eq_ok_iff.mp h
  exact Reading.settledAll_keeps Given.readsInput_isInvariant settled _ (Given.input_of_source made)

theorem exists_text_of_readTop (h : readTop r words = .ok i) :
    ∃ text, i.source.input = Path.ofText text := by
  induction words generalizing r with
  | nil =>
    obtain ⟨settled, -, h⟩ := bind_eq_ok_iff.mp h
    split at h <;> cases h
  | cons word words ih =>
    unfold readTop at h
    split at h
    · cases h
    · split at h
      · exact ih h
      · obtain ⟨next, -, h⟩ := bind_eq_ok_iff.mp h
        exact ih h
      · obtain ⟨next, -, h⟩ := bind_eq_ok_iff.mp h
        exact ih h
      · split at h
        · exact ih h
        · split at h
          · exact exists_text_of_readCommand h
          · cases h

theorem exists_text_of_read (h : read words = .ok i) : ∃ text, i.source.input = Path.ofText text :=
  exists_text_of_readTop h

end CommandLine

end Recolor
