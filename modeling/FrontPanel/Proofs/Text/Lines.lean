import FrontPanel.Command.Line

/-!
# Lines put together and cut again

A text is its lines with a newline behind each of them, up to any of its lines and what stands behind it.
Cutting a text into command lines therefore undoes joining them, and joining them gives the text back but
for the newline that it may end in.
-/

namespace FrontPanel.Text

set_option autoImplicit false

/-- Lines with a newline behind each. -/
def joined (ls : List (List Char)) : List Char := ls.flatMap fun line => line ++ ['\n']

/-- What stands behind a line: nothing, or a newline and any text. -/
def EndsLine (rest : List Char) : Prop := rest = [] ∨ rest.head? = some '\n'

/-- What stands in front of a line: nothing, or any text and a newline. -/
def StartsLine (before : List Char) : Prop := before = [] ∨ before.getLast? = some '\n'

theorem joined_cons_append (line : List Char) (ls : List (List Char)) (rest : List Char) :
    joined (line :: ls) ++ rest = line ++ '\n' :: (joined ls ++ rest) := by
  unfold joined
  rw [List.flatMap_cons, List.append_assoc, List.append_assoc, List.singleton_append]

theorem joined_concat (ls : List (List Char)) (line : List Char) :
    joined (ls ++ [line]) = joined ls ++ (line ++ ['\n']) := by
  unfold joined
  rw [List.flatMap_append, List.flatMap_singleton]

theorem intercalate_newline_concat (ls : List (List Char)) (last : List Char) :
    ['\n'].intercalate (ls ++ [last]) = joined ls ++ last := by
  induction ls with
  | nil => exact List.intercalate_singleton
  | cons line ls ih =>
    have hne : ls ++ [last] ≠ [] := List.append_ne_nil_of_right_ne_nil ls (List.cons_ne_nil last [])
    rw [List.cons_append, List.intercalate_cons_of_ne_nil hne, ih, joined_cons_append,
      List.append_assoc, List.singleton_append]

theorem cut_of_not_mem {line : List Char} (h : '\n' ∉ line) : cut line = (line, []) := by
  induction line with
  | nil => rfl
  | cons c rest ih =>
    obtain ⟨hc, hrest⟩ := List.ne_and_not_mem_of_not_mem_cons h
    simp only [cut, ih hrest]
    rw [if_neg fun h' => hc h'.symm]

theorem cut_append_newline {line : List Char} (h : '\n' ∉ line) (rest : List Char) :
    cut (line ++ '\n' :: rest) = (line, (cut rest).1 :: (cut rest).2) := by
  induction line with
  | nil => rfl
  | cons c line ih =>
    obtain ⟨hc, hline⟩ := List.ne_and_not_mem_of_not_mem_cons h
    simp only [List.cons_append, cut, ih hline]
    rw [if_neg fun h' => hc h'.symm]

theorem lines_of_not_mem {line : List Char} (h : '\n' ∉ line) (hne : line ≠ []) :
    lines line = [line] := by
  have hfull : line.isEmpty = false := List.isEmpty_eq_false_iff.mpr hne
  simp only [lines, cut_of_not_mem h, withoutEmptyLast, hfull, Bool.false_eq_true, if_false]

theorem lines_append_newline {line : List Char} (h : '\n' ∉ line) (rest : List Char) :
    lines (line ++ '\n' :: rest) = line :: lines rest := by
  simp only [lines, cut_append_newline h, withoutEmptyLast]

theorem lines_joined_append {ls : List (List Char)} (h : ∀ line ∈ ls, '\n' ∉ line)
    (rest : List Char) : lines (joined ls ++ rest) = ls ++ lines rest := by
  induction ls with
  | nil => rfl
  | cons line ls ih =>
    obtain ⟨hline, hls⟩ := List.forall_mem_cons.mp h
    rw [joined_cons_append, lines_append_newline hline, ih hls, List.cons_append]

theorem lines_nil : lines [] = [] := rfl

theorem lines_joined {ls : List (List Char)} (h : ∀ line ∈ ls, '\n' ∉ line) :
    lines (joined ls) = ls := by
  have hcut := lines_joined_append h []
  rwa [List.append_nil, lines_nil, List.append_nil] at hcut

/-- A line stays a line, whatever follows it. -/
theorem lines_append_rest {line rest : List Char} (h : '\n' ∉ line) (hne : line ≠ [])
    (hrest : EndsLine rest) : ∃ after, lines (line ++ rest) = line :: after := by
  rcases hrest with rfl | hrest
  · rw [List.append_nil]
    exact ⟨[], lines_of_not_mem h hne⟩
  · obtain ⟨more, rfl⟩ := List.head?_eq_some_iff.mp hrest
    exact ⟨lines more, lines_append_newline h more⟩

theorem eq_append_or_not_mem (text : List Char) :
    '\n' ∉ text ∨ ∃ line rest, '\n' ∉ line ∧ text = line ++ '\n' :: rest := by
  by_cases h : '\n' ∈ text
  · obtain ⟨line, rest, htext, hline⟩ := List.eq_append_cons_of_mem h
    exact Or.inr ⟨line, rest, hline, htext⟩
  · exact Or.inl h

/-- A text is some lines, and what stands behind their last newline. -/
theorem exists_joined_append (text : List Char) :
    ∃ ls last, (∀ line ∈ ls, '\n' ∉ line) ∧ '\n' ∉ last ∧ text = joined ls ++ last := by
  induction text with
  | nil => exact ⟨[], [], nofun, nofun, rfl⟩
  | cons c text ih =>
    obtain ⟨ls, last, hls, hlast, rfl⟩ := ih
    by_cases hc : c = '\n'
    · exact ⟨[] :: ls, last, List.forall_mem_cons.mpr ⟨nofun, hls⟩, hlast, by
        rw [joined_cons_append, hc, List.nil_append]⟩
    · cases ls with
      | nil => exact ⟨[], c :: last, nofun, fun hmem => (List.mem_cons.mp hmem).elim
          (fun h => hc h.symm) hlast, rfl⟩
      | cons line ls =>
        obtain ⟨hline, hls⟩ := List.forall_mem_cons.mp hls
        refine ⟨(c :: line) :: ls, last, List.forall_mem_cons.mpr ⟨?_, hls⟩, hlast, ?_⟩
        · exact fun hmem => (List.mem_cons.mp hmem).elim (fun h => hc h.symm) hline
        · rw [joined_cons_append, joined_cons_append, List.cons_append]

theorem StartsLine.exists_joined {before : List Char} (h : StartsLine before) :
    ∃ ls, (∀ line ∈ ls, '\n' ∉ line) ∧ before = joined ls := by
  obtain ⟨ls, last, hls, hlast, rfl⟩ := exists_joined_append before
  cases last with
  | nil => exact ⟨ls, hls, List.append_nil _⟩
  | cons c rest =>
    rcases h with h | h
    · cases (List.append_eq_nil_iff.mp h).2
    · rw [List.getLast?_append, List.getLast?_eq_some_getLast (List.cons_ne_nil c rest),
        Option.some_or] at h
      exact absurd (Option.some.inj h ▸ List.getLast_mem _) hlast

/-- The text is made of the lines in front of any of its lines, the line itself and what ends it. -/
theorem exists_rest_of_lines {text line : List Char} {before after : List (List Char)}
    (h : lines text = before ++ line :: after) :
    ∃ rest, text = joined before ++ (line ++ rest) ∧ EndsLine rest := by
  induction before generalizing text with
  | nil =>
    rcases eq_append_or_not_mem text with hnone | ⟨first, rest, hfirst, rfl⟩
    · by_cases hne : text = []
      · subst hne
        cases h
      · rw [lines_of_not_mem hnone hne] at h
        cases h
        exact ⟨[], by rw [List.append_nil]; rfl, Or.inl rfl⟩
    · rw [lines_append_newline hfirst] at h
      cases h
      exact ⟨'\n' :: rest, rfl, Or.inr rfl⟩
  | cons first before ih =>
    rcases eq_append_or_not_mem text with hnone | ⟨first', rest, hfirst, rfl⟩
    · by_cases hne : text = []
      · subst hne
        cases h
      · rw [lines_of_not_mem hnone hne] at h
        obtain ⟨_, hnil⟩ := List.cons.inj h
        exact absurd hnil.symm (List.append_ne_nil_of_right_ne_nil _ (List.cons_ne_nil _ _))
    · rw [lines_append_newline hfirst] at h
      obtain ⟨rfl, hrest⟩ := List.cons.inj h
      obtain ⟨more, rfl, hends⟩ := ih hrest
      exact ⟨more, by rw [joined_cons_append], hends⟩

theorem lines_eq_nil_iff {text : List Char} : lines text = [] ↔ text = [] := by
  constructor
  · intro hnone
    rcases eq_append_or_not_mem text with hmem | ⟨line, rest, hline, rfl⟩
    · refine Decidable.byContradiction fun hne => ?_
      rw [lines_of_not_mem hmem hne] at hnone
      cases hnone
    · rw [lines_append_newline hline] at hnone
      cases hnone
  · rintro rfl
    rfl

/-- The lines with a newline between them are the text, but for the newline that it may end in. -/
theorem intercalate_lines (text : List Char) :
    (['\n'].intercalate (lines text) = text ∧ text.getLast? ≠ some '\n') ∨
      ['\n'].intercalate (lines text) ++ ['\n'] = text := by
  obtain ⟨ls, last, hls, hlast, rfl⟩ := exists_joined_append text
  rw [lines_joined_append hls]
  cases last with
  | cons c rest =>
    left
    have hne : c :: rest ≠ [] := List.cons_ne_nil c rest
    rw [lines_of_not_mem hlast hne, intercalate_newline_concat]
    refine ⟨rfl, fun hend => ?_⟩
    rw [List.getLast?_append, List.getLast?_eq_some_getLast hne, Option.some_or] at hend
    exact hlast (Option.some.inj hend ▸ List.getLast_mem hne)
  | nil =>
    rw [lines_nil, List.append_nil, List.append_nil]
    rcases List.eq_nil_or_concat ls with rfl | ⟨before, line, rfl⟩
    · exact Or.inl ⟨rfl, nofun⟩
    · right
      rw [List.concat_eq_append, intercalate_newline_concat, joined_concat, List.append_assoc]

end FrontPanel.Text

namespace FrontPanel.Command

set_option autoImplicit false

theorem newline_not_mem_of_mem_linesOf {text line : String} (h : line ∈ linesOf text) :
    '\n' ∉ line.toList := by
  obtain ⟨piece, hpiece, rfl⟩ := List.mem_map.mp h
  rw [String.toList_ofList]
  exact Text.newline_not_mem_of_mem_lines hpiece

theorem toList_joined (ls : List String) :
    (String.join (ls.map (· ++ "\n"))).toList = Text.joined (ls.map String.toList) := by
  unfold Text.joined
  rw [String.toList_join, List.flatMap_map, List.flatMap_map]
  simp only [String.toList_append]
  rfl

theorem linesOf_joined {ls : List String} (h : ∀ line ∈ ls, '\n' ∉ line.toList) :
    linesOf (String.join (ls.map (· ++ "\n"))) = ls := by
  have hlines : ∀ line ∈ ls.map String.toList, '\n' ∉ line := List.forall_mem_map.mpr h
  unfold linesOf
  rw [toList_joined, Text.lines_joined hlines, List.map_map]
  exact List.map_id'' (fun _ => String.ofList_toList) ls

theorem toList_intercalate_linesOf (text : String) :
    ("\n".intercalate (linesOf text)).toList = ['\n'].intercalate (Text.lines text.toList) := by
  unfold linesOf
  rw [String.toList_intercalate, List.map_map]
  exact congrArg _ (List.map_id'' (fun _ => String.toList_ofList) _)

/-- Lines that are joined with a newline behind each are the lines of the joined text, the empty ones
too. The other way round the lines of any text hold no newline, and with a newline between them they are
the text, without the newline at its end if there is one; only the empty text has none. -/
theorem cutting_undoes_joining :
    (∀ ls : List String, (∀ line ∈ ls, '\n' ∉ line.toList) →
      linesOf (String.join (ls.map (· ++ "\n"))) = ls) ∧
    ∀ text : String,
      (∀ line ∈ linesOf text, '\n' ∉ line.toList) ∧
      (∀ body, text = body ++ "\n" → "\n".intercalate (linesOf text) = body) ∧
      ((∀ body, text ≠ body ++ "\n") → "\n".intercalate (linesOf text) = text) ∧
      (linesOf text = [] ↔ text = "") := by
  refine ⟨fun ls => linesOf_joined, fun text => ⟨fun _ => newline_not_mem_of_mem_linesOf, ?_⟩⟩
  have hjoined := toList_intercalate_linesOf text
  refine ⟨?_, ?_, ?_⟩
  · rintro body rfl
    apply String.toList_inj.mp
    have hbody : (body ++ "\n").toList = body.toList ++ ['\n'] := String.toList_append
    rcases Text.intercalate_lines (body ++ "\n").toList with ⟨_, hend⟩ | hrest
    · exact absurd (by rw [hbody, List.getLast?_concat]) hend
    · rw [hjoined]
      exact List.append_cancel_right (hrest.trans hbody)
  · intro hopen
    apply String.toList_inj.mp
    rcases Text.intercalate_lines text.toList with ⟨htext, _⟩ | hrest
    · rw [hjoined, htext]
    · refine absurd (String.toList_inj.mp ?_) (hopen ("\n".intercalate (linesOf text)))
      rw [String.toList_append, hjoined]
      exact hrest.symm
  · unfold linesOf
    rw [List.map_eq_nil_iff, Text.lines_eq_nil_iff, String.toList_eq_nil_iff]

/-- Doubled newlines are empty lines, and the last newline only ends its line. -/
theorem cutting_of_empty_lines :
    (∀ line ∈ ["M105", "", "G28", ""], '\n' ∉ line.toList) ∧
      linesOf "M105\n\nG28\n\n" = ["M105", "", "G28", ""] := by
  have hlines : ∀ line ∈ ["M105", "", "G28", ""], '\n' ∉ line.toList := by decide
  exact ⟨hlines, cutting_undoes_joining.1 ["M105", "", "G28", ""] hlines⟩

end FrontPanel.Command
