/-!
# Lines of a text

A newline ends a line. Text behind the last newline is a line of its own, unless it is empty; so joining
lines with a newline behind each and cutting the result gives the lines back.
-/

namespace FrontPanel.Text

set_option autoImplicit false

/-- The text up to the first newline, and the pieces behind each newline. -/
def cut : List Char → List Char × List (List Char)
  | [] => ([], [])
  | c :: rest =>
    let (piece, pieces) := cut rest
    if c = '\n' then ([], piece :: pieces) else (c :: piece, pieces)

/-- Leaves out an empty last piece. -/
def withoutEmptyLast : List (List Char) → List (List Char)
  | [] => []
  | [last] => if last.isEmpty then [] else [last]
  | piece :: pieces => piece :: withoutEmptyLast pieces

def lines (text : List Char) : List (List Char) :=
  let (piece, pieces) := cut text
  withoutEmptyLast (piece :: pieces)

theorem newline_not_mem_cut (text : List Char) :
    '\n' ∉ (cut text).1 ∧ ∀ piece, piece ∈ (cut text).2 → '\n' ∉ piece := by
  induction text with
  | nil => simp [cut]
  | cons c rest ih =>
    obtain ⟨hpiece, hpieces⟩ := ih
    simp only [cut]
    by_cases hc : c = '\n'
    · rw [if_pos hc]
      refine ⟨List.not_mem_nil, ?_⟩
      intro piece hmem
      rcases List.mem_cons.mp hmem with rfl | hmem
      · exact hpiece
      · exact hpieces piece hmem
    · rw [if_neg hc]
      refine ⟨?_, hpieces⟩
      intro hmem
      rcases List.mem_cons.mp hmem with h | hmem
      · exact hc h.symm
      · exact hpiece hmem

theorem mem_of_mem_withoutEmptyLast {piece : List Char} {pieces : List (List Char)}
    (h : piece ∈ withoutEmptyLast pieces) : piece ∈ pieces := by
  induction pieces with
  | nil => exact h
  | cons first rest ih =>
    cases rest with
    | nil =>
      unfold withoutEmptyLast at h
      split at h
      · cases h
      · exact h
    | cons second rest =>
      rcases List.mem_cons.mp h with rfl | h
      · exact List.mem_cons_self
      · exact List.mem_cons_of_mem _ (ih h)

theorem newline_not_mem_of_mem_lines {text line : List Char} (h : line ∈ lines text) :
    '\n' ∉ line := by
  obtain ⟨hpiece, hpieces⟩ := newline_not_mem_cut text
  rcases List.mem_cons.mp (mem_of_mem_withoutEmptyLast h) with rfl | hmem
  · exact hpiece
  · exact hpieces line hmem

end FrontPanel.Text
