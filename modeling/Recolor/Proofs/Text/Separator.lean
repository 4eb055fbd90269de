import Mathlib.Data.List.TakeDrop

namespace Recolor.Text

variable {separator mark : Char} {cs piece before rest : List Char}

theorem span_separator (absent : separator ∉ before) :
    (before ++ separator :: rest).span (· != separator) = (before, separator :: rest) := by
  have all : ∀ c ∈ before, (c != separator) = true := by
    intro c hc
    simpa using fun same : c = separator => absent (same ▸ hc)
  rw [List.span_eq_takeWhile_dropWhile, List.takeWhile_append_of_pos all,
    List.dropWhile_append_of_pos all]
  simp

theorem append_of_span_separator (h : cs.span (· != separator) = (before, mark :: rest)) :
    mark = separator ∧ cs = before ++ separator :: rest := by
  rw [List.span_eq_takeWhile_dropWhile] at h
  obtain ⟨rfl, dropped⟩ := Prod.mk.inj h
  have stopped := List.head?_dropWhile_not (· != separator) cs
  obtain rfl : mark = separator := by simpa [dropped] using stopped
  refine ⟨rfl, ?_⟩
  rw [← dropped, List.takeWhile_append_dropWhile]

theorem not_mem_of_mem_splitOn {cs : List Char} (h : piece ∈ cs.splitOn separator) :
    separator ∉ piece := by
  by_cases there : separator ∈ cs
  · obtain ⟨first, rest, rfl, absent⟩ := List.eq_append_cons_of_mem there
    rw [List.splitOn_append_cons_self_of_not_mem absent] at h
    rcases List.mem_cons.mp h with rfl | later
    · exact absent
    · exact not_mem_of_mem_splitOn later
  · rw [List.splitOn_eq_singleton there] at h
    cases List.mem_singleton.mp h
    exact there
termination_by cs.length
decreasing_by simp [*]; omega

end Recolor.Text
