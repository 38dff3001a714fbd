import Mathlib.Algebra.Group.Nat.Even
import Mathlib.Data.List.Basic
import Mathlib.Data.List.TakeWhile
import Mathlib.Logic.Relation
import FrontPanel.Proofs.Settings.Statement
import FrontPanel.Proofs.Text.Lines

/-!
# The layout of a text means nothing

Empty lines and comments may be put in anywhere, blanks at the ends of a line and around its first equals
sign, a comment behind any line without an open quote, and a carriage return in front of any newline. The
text is read as before, be it understood or refused.
-/

namespace FrontPanel.Settings

set_option autoImplicit false

open Text (isBlank trim trimStart trimEnd)

theorem exists_blank_trimStart (text : List Char) :
    ∃ blanks, IsBlankText blanks ∧ text = blanks ++ trimStart text :=
  ⟨text.takeWhile isBlank, fun _ hc => List.mem_takeWhile_imp hc,
    List.takeWhile_append_dropWhile.symm⟩

theorem exists_blank_trimEnd (text : List Char) :
    ∃ blanks, IsBlankText blanks ∧ text = trimEnd text ++ blanks := by
  obtain ⟨blanks, hblanks, htext⟩ := exists_blank_trimStart text.reverse
  refine ⟨blanks.reverse, fun c hc => hblanks c (List.mem_reverse.mp hc), ?_⟩
  rw [trimEnd, ← List.reverse_append, ← trimStart, ← htext, List.reverse_reverse]

theorem first_trimStart (text : List Char) (c : Char) (hc : (trimStart text).head? = some c) :
    isBlank c = false := by
  have hfirst := List.head?_dropWhile_not isBlank text
  unfold trimStart at hc
  rw [hc] at hfirst
  simpa using hfirst

theorem last_trimEnd (text : List Char) (c : Char) (hc : (trimEnd text).getLast? = some c) :
    isBlank c = false := by
  rw [trimEnd, List.getLast?_reverse] at hc
  exact first_trimStart text.reverse c hc

theorem head?_trimStart (text : List Char) : (trimStart text).head? = (trim text).head? := by
  obtain ⟨blanks, hblanks, htext⟩ := exists_blank_trimEnd (trimStart text)
  have hfirst := first_trimStart text
  change trimStart text = trim text ++ blanks at htext
  rw [htext] at hfirst ⊢
  cases htrim : trim text with
  | cons c rest => rfl
  | nil =>
    cases blanks with
    | nil => rfl
    | cons c rest =>
      rw [htrim] at hfirst
      exact absurd (hblanks c List.mem_cons_self) (by rw [hfirst c rfl]; exact Bool.false_ne_true)

theorem isTight_trim (text : List Char) : IsTight (trim text) := by
  refine ⟨fun c hc => first_trimStart text c ?_, last_trimEnd (trimStart text)⟩
  rwa [head?_trimStart]

/-- What trimming takes away are the blanks around a text. -/
theorem exists_spaced (text : List Char) : ∃ before after, IsBlankText before ∧ IsBlankText after ∧
    text = before ++ trim text ++ after := by
  obtain ⟨before, hbefore, htext⟩ := exists_blank_trimStart text
  obtain ⟨after, hafter, hstart⟩ := exists_blank_trimEnd (trimStart text)
  refine ⟨before, after, hbefore, hafter, ?_⟩
  rw [List.append_assoc, ← show trimStart text = trim text ++ after from hstart]
  exact htext

theorem isBlankText_singleton {c : Char} (h : isBlank c = true) : IsBlankText [c] := by
  intro a ha
  rwa [List.mem_singleton.mp ha]

theorem IsBlankText.append {a b : List Char} (ha : IsBlankText a) (hb : IsBlankText b) :
    IsBlankText (a ++ b) := by
  intro c hc
  exact (List.mem_append.mp hc).elim (ha c) (hb c)

theorem trim_append_left {blanks : List Char} (h : IsBlankText blanks) (text : List Char) :
    trim (blanks ++ text) = trim text := by
  obtain ⟨before, after, hbefore, hafter, htext⟩ := exists_spaced text
  rw [← trim_spaced (h.append hbefore) (isTight_trim text) hafter, List.append_assoc blanks,
    List.append_assoc blanks, ← htext]

theorem trim_append_right {blanks : List Char} (h : IsBlankText blanks) (text : List Char) :
    trim (text ++ blanks) = trim text := by
  obtain ⟨before, after, hbefore, hafter, htext⟩ := exists_spaced text
  rw [← trim_spaced hbefore (isTight_trim text) (hafter.append h), ← List.append_assoc, ← htext]

theorem trim_trimStart (text : List Char) : trim (trimStart text) = trim text := by
  obtain ⟨blanks, hblanks, htext⟩ := exists_blank_trimStart text
  rw [← trim_append_left hblanks, ← htext]

theorem trim_trimEnd (text : List Char) : trim (trimEnd text) = trim text := by
  obtain ⟨blanks, hblanks, htext⟩ := exists_blank_trimEnd text
  rw [← trim_append_right hblanks, ← htext]

theorem getLast?_trimEnd (text : List Char) : (trimEnd text).getLast? = (trim text).getLast? := by
  obtain ⟨before, after, hbefore, hafter, htext⟩ := exists_spaced text
  have hlast := (isTight_trim text).last
  by_cases hempty : trim text = []
  · have hblank : IsBlankText text := by
      rw [htext, hempty, List.append_nil]
      exact hbefore.append hafter
    have hend := trimEnd_append hblank isTight_nil.last
    rw [List.nil_append] at hend
    rw [hend, hempty]
  · have hlast' : ∀ c, (before ++ trim text).getLast? = some c → isBlank c = false := by
      rwa [List.getLast?_append_of_ne_nil before hempty]
    have hend := trimEnd_append hafter hlast'
    rw [← htext] at hend
    rw [hend, List.getLast?_append_of_ne_nil before hempty]

/-- Trimming stops on either side at a character that is not blank. -/
theorem trim_append_cons {c : Char} (hc : isBlank c = false) (before after : List Char) :
    trim (before ++ c :: after) = trimStart before ++ c :: trimEnd after := by
  obtain ⟨blanks, hblanks, hbefore⟩ := exists_blank_trimStart before
  obtain ⟨blanks', hblanks', hafter⟩ := exists_blank_trimEnd after
  have htight : IsTight (trimStart before ++ c :: trimEnd after) := by
    constructor
    · intro a ha
      cases hstart : trimStart before with
      | nil =>
        rw [hstart] at ha
        cases ha
        exact hc
      | cons b rest =>
        rw [hstart] at ha
        exact first_trimStart before a (hstart ▸ ha)
    · intro a ha
      rw [List.getLast?_append_of_ne_nil _ (List.cons_ne_nil _ _), List.getLast?_cons] at ha
      cases hend : (trimEnd after).getLast? with
      | none =>
        rw [hend] at ha
        cases ha
        exact hc
      | some b =>
        rw [hend] at ha
        exact last_trimEnd after a (hend ▸ ha)
  have htext : before ++ c :: after =
      blanks ++ (trimStart before ++ c :: trimEnd after) ++ blanks' := by
    conv_lhs => rw [hbefore, hafter]
    simp only [List.append_assoc, List.cons_append]
  rw [htext, trim_spaced hblanks htight hblanks']

theorem quotedAfter_append_of_none {q : Bool} {a : List Char} (h : quotedAfter q a = none)
    (b : List Char) : quotedAfter q (a ++ b) = none := by
  induction a generalizing q with
  | nil => cases h
  | cons c rest ih =>
    simp only [List.cons_append, quotedAfter] at h ⊢
    split at h
    · rw [if_pos ‹_›]
      exact ih h
    split at h
    · rw [if_neg ‹¬ c = '"'›, if_pos ‹_›]
    · rw [if_neg ‹¬ c = '"'›, if_neg ‹_›]
      exact ih h

/-- Nothing behind the beginning of a comment matters. -/
theorem uncommented_append_of_none {q : Bool} {a : List Char} (h : quotedAfter q a = none)
    (b : List Char) : uncommented q (a ++ b) = uncommented q a := by
  induction a generalizing q with
  | nil => cases h
  | cons c rest ih =>
    simp only [List.cons_append, quotedAfter, uncommented] at h ⊢
    split at h
    · rw [if_pos ‹_›, if_pos ‹_›, ih h]
    split at h
    · rw [if_neg ‹¬ c = '"'›, if_neg ‹¬ c = '"'›, if_pos ‹_›, if_pos ‹_›]
    · rw [if_neg ‹¬ c = '"'›, if_neg ‹¬ c = '"'›, if_neg ‹_›, if_neg ‹_›, ih h]

theorem uncommented_of_some {q q' : Bool} {text : List Char} (h : quotedAfter q text = some q') :
    uncommented q text = text := by
  have htext := uncommented_append h []
  rwa [List.append_nil, uncommented, List.append_nil] at htext

theorem even_count_quotes {q q' : Bool} {text : List Char} (h : quotedAfter q text = some q') :
    Even (text.count '"') ↔ q' = q := by
  induction text generalizing q with
  | nil =>
    cases h
    exact iff_of_true ⟨0, rfl⟩ rfl
  | cons c rest ih =>
    unfold quotedAfter at h
    by_cases hc : c = '"'
    · rw [if_pos hc] at h
      rw [hc, List.count_cons_self, Nat.even_add_one, ih h]
      cases q <;> cases q' <;> decide
    · rw [if_neg hc] at h
      split at h
      · cases h
      · rw [List.count_cons_of_ne hc, ih h]

/-- The double quotes in front of the first `#` outside quotes are even in number; if there is no such
`#`, those of the whole line are. -/
def QuotesClosed (line : List Char) : Prop :=
  Even (line.count '"') ∨ ∃ text comment, line = text ++ '#' :: comment ∧ Even (text.count '"')

theorem QuotesClosed.quotedAfter_ne {line : List Char} (h : QuotesClosed line) :
    quotedAfter false line ≠ some true := by
  intro hquote
  rcases h with heven | ⟨text, comment, rfl, heven⟩
  · cases (even_count_quotes hquote).mp heven
  · cases htext : quotedAfter false text with
    | none => cases (quotedAfter_append_of_none htext _).symm.trans hquote
    | some q =>
      cases (even_count_quotes htext).mp heven
      cases (quotedAfter_append htext _).symm.trans hquote

theorem mem_trim {c : Char} (hc : isBlank c = false) {text : List Char} (h : c ∈ text) :
    c ∈ trim text := by
  obtain ⟨before, after, hbefore, hafter, htext⟩ := exists_spaced text
  rw [htext] at h
  rcases List.mem_append.mp h with h | h
  · exact (List.mem_append.mp h).resolve_left (not_mem_blank hc hbefore)
  · exact absurd h (not_mem_blank hc hafter)

theorem Heading.ofName_of_equals {name : List Char} (h : '=' ∈ name) :
    Heading.ofName name = .error .unknownSection := by
  have hne {word : String} (hword : '=' ∉ word.toList) : String.ofList name ≠ word := by
    rintro rfl
    exact hword (by rwa [String.toList_ofList])
  unfold ofName
  split
  · exact absurd ‹_› (hne (by decide))
  · exact absurd ‹_› (hne (by decide))
  · exact absurd ‹_› (hne (by decide))
  · rfl

theorem Statement.ofLine_of_equals {line start stop : List Char}
    (htext : trim (uncommented false line) = start ++ '=' :: stop) (hstart : '=' ∉ start) :
    Statement.ofLine line =
      if start.head? = some '[' ∧ stop.getLast? = some ']' then
        .ok (.header (trim (start ++ '=' :: stop).tail.dropLast))
      else .ok (.assignment (trim start) (trim stop)) := by
  have hempty : (start ++ '=' :: stop).isEmpty = false := by simp
  have hfirst : (start ++ '=' :: stop).head? = some '[' ↔ start.head? = some '[' := by
    cases start <;> simp
  have hlast : (start ++ '=' :: stop).getLast? = some ']' ↔ stop.getLast? = some ']' := by
    rw [List.getLast?_append_cons, List.getLast?_cons]
    cases stop.getLast? <;> simp
  unfold Statement.ofLine
  simp only [htext, hempty, hfirst, hlast, splitAssignment_append hstart, Bool.false_eq_true, if_false]

/-- A line with an equals sign is read by the trimmed texts on its two sides. In brackets it is a header,
but names no section. -/
theorem Reading.next_equals (r : Reading) {key : List Char} {q : Bool} (hkey : '=' ∉ key)
    (hquote : quotedAfter false key = some q) (value : List Char) :
    r.next (key ++ '=' :: value) =
      if (trim key).head? = some '[' ∧ (trim (uncommented q value)).getLast? = some ']' then
        .error .unknownSection
      else r.follow (.assignment (trim key) (trim (uncommented q value))) := by
  have hequals : uncommented q ('=' :: value) = '=' :: uncommented q value := by
    rw [uncommented, if_neg (by decide), if_neg fun h => absurd h.1 (by decide)]
  have htext : trim (uncommented false (key ++ '=' :: value)) =
      trimStart key ++ '=' :: trimEnd (uncommented q value) := by
    rw [uncommented_append hquote, hequals, trim_append_cons (by decide)]
  have hstart : '=' ∉ trimStart key := fun hmem => hkey (List.dropWhile_subset _ hmem)
  unfold next
  rw [Statement.ofLine_of_equals htext hstart, trim_trimStart, trim_trimEnd, head?_trimStart,
    getLast?_trimEnd]
  split
  case isFalse => rfl
  case isTrue hheader =>
    have hname : '=' ∈ trim (trimStart key ++ '=' :: trimEnd (uncommented q value)).tail.dropLast := by
      rw [← head?_trimStart, ← getLast?_trimEnd] at hheader
      obtain ⟨start, hfirst⟩ := List.head?_eq_some_iff.mp hheader.1
      obtain ⟨stop, hlast⟩ := List.getLast?_eq_some_iff.mp hheader.2
      apply mem_trim (by decide)
      rw [hfirst, hlast, List.cons_append, List.tail_cons, ← List.cons_append, ← List.append_assoc,
        List.dropLast_concat]
      exact List.mem_append_right start List.mem_cons_self
    change (Heading.ofName _).map _ = _
    rw [Heading.ofName_of_equals hname]
    rfl

/-- The line is laid out anew: blanks at its beginning or end, blanks on either side of its first equals
sign, or a comment behind it. -/
inductive LineRelaid : List Char → List Char → Prop
  | indented {blanks line : List Char} (hblanks : IsBlankText blanks) :
      LineRelaid line (blanks ++ line)
  | trailed {blanks line : List Char} (hblanks : IsBlankText blanks) :
      LineRelaid line (line ++ blanks)
  | parted {key value before after : List Char} (hfirst : '=' ∉ key) (hbefore : IsBlankText before)
      (hafter : IsBlankText after) :
      LineRelaid (key ++ '=' :: value) (key ++ before ++ '=' :: (after ++ value))
  | commented {line comment : List Char} (hclosed : QuotesClosed line) :
      LineRelaid line (line ++ '#' :: comment)

theorem Reading.next_congr {line line' : List Char}
    (h : trim (uncommented false line) = trim (uncommented false line')) (r : Reading) :
    r.next line = r.next line' := by
  unfold next Statement.ofLine
  rw [h]

theorem Reading.next_append_blank {blanks : List Char} (hblanks : IsBlankText blanks)
    (line : List Char) (r : Reading) : r.next (line ++ blanks) = r.next line := by
  apply next_congr
  cases hquote : quotedAfter false line with
  | none => rw [uncommented_append_of_none hquote]
  | some q =>
    rw [uncommented_append hquote, uncommented_of_some (quotedAfter_blank hblanks q),
      uncommented_of_some hquote, trim_append_right hblanks]

theorem LineRelaid.next_eq {line line' : List Char} (h : LineRelaid line line') (r : Reading) :
    r.next line = r.next line' := by
  cases h with
  | @indented blanks _ hblanks =>
    apply Reading.next_congr
    rw [uncommented_append (quotedAfter_blank hblanks false), trim_append_left hblanks]
  | trailed hblanks => exact (r.next_append_blank hblanks line).symm
  | @parted key value before after hfirst hbefore hafter =>
    cases hquote : quotedAfter false key with
    | none =>
      apply Reading.next_congr
      rw [List.append_assoc, uncommented_append_of_none hquote, uncommented_append_of_none hquote]
    | some q =>
      have hfirst' : '=' ∉ key ++ before := fun hmem =>
        (List.mem_append.mp hmem).elim hfirst (not_mem_blank (by decide) hbefore)
      have hquote' : quotedAfter false (key ++ before) = some q := by
        rw [quotedAfter_append hquote, quotedAfter_blank hbefore]
      rw [r.next_equals hfirst hquote, r.next_equals hfirst' hquote',
        uncommented_append (quotedAfter_blank hafter q), trim_append_left hafter,
        trim_append_right hbefore]
  | @commented _ comment hclosed =>
    apply Reading.next_congr
    cases hquote : quotedAfter false line with
    | none => rw [uncommented_append_of_none hquote]
    | some q =>
      cases q with
      | true => exact absurd hquote hclosed.quotedAfter_ne
      | false =>
        have hcomment : uncommented false ('#' :: comment) = [] := uncommented_comment (Or.inr rfl)
        rw [uncommented_append hquote, hcomment, List.append_nil, uncommented_of_some hquote]

/-- Blanks and a comment alone say nothing. -/
theorem Reading.next_empty {line : List Char} (h : IsLineOf [] line) (r : Reading) :
    r.next line = .ok r := by
  unfold next
  rw [(Shows.nothing h).ofLine_eq trivial]
  rfl

/-- The text is laid out anew in one place. -/
inductive Relaid : List Char → List Char → Prop
  | line {before line line' after : List Char} (hbefore : Text.StartsLine before)
      (hafter : Text.EndsLine after) (hline : '\n' ∉ line) (hline' : '\n' ∉ line')
      (hrelaid : LineRelaid line line') :
      Relaid (before ++ (line ++ after)) (before ++ (line' ++ after))
  /-- A line without a statement, in front of any line or behind a last newline. -/
  | inserted {before line after : List Char} (hbefore : Text.StartsLine before) (hline : '\n' ∉ line)
      (hempty : IsLineOf [] line) : Relaid (before ++ after) (before ++ (line ++ '\n' :: after))
  /-- A line without a statement, behind a text that may lack a last newline. -/
  | appended {text line : List Char} (hline : '\n' ∉ line) (hempty : IsLineOf [] line) :
      Relaid text (text ++ '\n' :: line)
  | returned {before after : List Char} :
      Relaid (before ++ '\n' :: after) (before ++ '\r' :: '\n' :: after)

/-- What follows the reading of a text, line by line. -/
def Reading.through (text : List Char) (r : Reading) : Except SettingsError Reading :=
  (Text.lines text).foldlM next r

theorem Reading.through_joined_append {ls : List (List Char)} (h : ∀ line ∈ ls, '\n' ∉ line)
    (rest : List Char) (r : Reading) :
    r.through (Text.joined ls ++ rest) = ls.foldlM next r >>= through rest := by
  unfold through
  rw [Text.lines_joined_append h, List.foldlM_append]

theorem Reading.through_append {line rest : List Char} (hline : '\n' ∉ line)
    (hrest : Text.EndsLine rest) (r : Reading) :
    r.through (line ++ rest) = r.next line >>= through rest.tail := by
  rcases hrest with rfl | hrest
  · have hnone : through [] = (pure : Reading → Except SettingsError Reading) := rfl
    rw [List.append_nil, List.tail_nil, hnone, bind_pure]
    by_cases hempty : line = []
    · rw [hempty]
      rfl
    · rw [through, Text.lines_of_not_mem hline hempty, List.foldlM_cons]
      exact bind_pure _
  · obtain ⟨more, rfl⟩ := List.head?_eq_some_iff.mp hrest
    rw [through, Text.lines_append_newline hline, List.foldlM_cons]
    rfl

/-- Behind whole lines, texts that are read alike still are. -/
theorem Reading.through_congr {ls : List (List Char)} (hls : ∀ line ∈ ls, '\n' ∉ line)
    {rest rest' : List Char} (h : ∀ r : Reading, r.through rest = r.through rest') (r : Reading) :
    r.through (Text.joined ls ++ rest) = r.through (Text.joined ls ++ rest') := by
  rw [through_joined_append hls, through_joined_append hls, funext h]

theorem Relaid.through_eq {text text' : List Char} (h : Relaid text text') (r : Reading) :
    r.through text = r.through text' := by
  cases h with
  | line hbefore hafter hline hline' hrelaid =>
    obtain ⟨ls, hls, rfl⟩ := hbefore.exists_joined
    refine Reading.through_congr hls (fun r' => ?_) r
    rw [Reading.through_append hline hafter, Reading.through_append hline' hafter, hrelaid.next_eq r']
  | @inserted before line after hbefore hline hempty =>
    obtain ⟨ls, hls, rfl⟩ := hbefore.exists_joined
    refine Reading.through_congr hls (fun r' => ?_) r
    rw [Reading.through_append hline (Or.inr rfl), Reading.next_empty hempty]
    rfl
  | @appended text line hline hempty =>
    obtain ⟨ls, last, hls, hlast, rfl⟩ := Text.exists_joined_append text
    have hnext (r' : Reading) : r'.through line = .ok r' := by
      have hline' := Reading.through_append hline (Or.inl rfl) r'
      rwa [List.append_nil, Reading.next_empty hempty] at hline'
    rw [List.append_assoc]
    refine Reading.through_congr hls (fun r' => ?_) r
    have hend := Reading.through_append hlast (Or.inl rfl) r'
    rw [List.append_nil] at hend
    rw [hend, Reading.through_append hlast (Or.inr rfl), List.tail_cons, funext hnext]
    rfl
  | @returned before after =>
    obtain ⟨ls, last, hls, hlast, rfl⟩ := Text.exists_joined_append before
    have hlast' : '\n' ∉ last ++ ['\r'] := by simp [hlast]
    have hsplit : last ++ '\r' :: '\n' :: after = last ++ ['\r'] ++ '\n' :: after := by
      rw [List.append_assoc, List.singleton_append]
    rw [List.append_assoc, List.append_assoc, hsplit]
    refine Reading.through_congr hls (fun r' => ?_) r
    rw [Reading.through_append hlast (Or.inr rfl), Reading.through_append hlast' (Or.inr rfl),
      r'.next_append_blank (isBlankText_singleton rfl)]

theorem through_eq_of_relaid {text text' : List Char} (h : Relation.EqvGen Relaid text text')
    (r : Reading) : r.through text = r.through text' := by
  induction h with
  | rel _ _ hstep => exact hstep.through_eq r
  | refl _ => rfl
  | symm _ _ _ ih => exact ih.symm
  | trans _ _ _ _ _ ih ih' => exact ih.trans ih'

/-- Texts that come from each other by any number of such changes, made or taken back, are read alike:
both as the same settings, or both refused for the same cause. -/
theorem relaid_text_reads_alike {text text' : String}
    (h : Relation.EqvGen Relaid text.toList text'.toList) : read text = read text' :=
  congrArg (Except.map Reading.settings) (through_eq_of_relaid h {})

/-- A comment in front, a carriage return, blanks around the equals sign, a comment behind a value that
holds a `#` itself, and an empty line at the end. -/
theorem relaid_label_reads_alike :
    Relation.EqvGen Relaid "[about]\nmake=\"a # b\"".toList
        "# who\n[about]\r\nmake\t= \"a # b\"# by\n ".toList ∧
      read "[about]\nmake=\"a # b\"" = read "# who\n[about]\r\nmake\t= \"a # b\"# by\n " := by
  have hspace : IsBlankText [' '] := isBlankText_singleton rfl
  have htab : IsBlankText ['\t'] := isBlankText_singleton rfl
  have hinserted : Relaid "[about]\nmake=\"a # b\"".toList "# who\n[about]\nmake=\"a # b\"".toList := by
    simpa using @Relaid.inserted [] "# who".toList "[about]\nmake=\"a # b\"".toList (Or.inl rfl)
      (by decide) ⟨[], [], "# who".toList, isBlankText_nil, isBlankText_nil, Or.inr rfl, rfl⟩
  have hreturned : Relaid "# who\n[about]\nmake=\"a # b\"".toList
      "# who\n[about]\r\nmake=\"a # b\"".toList := by
    simpa using @Relaid.returned "# who\n[about]".toList "make=\"a # b\"".toList
  have hparted : Relaid "# who\n[about]\r\nmake=\"a # b\"".toList
      "# who\n[about]\r\nmake\t= \"a # b\"".toList := by
    simpa using @Relaid.line "# who\n[about]\r\n".toList "make=\"a # b\"".toList
      "make\t= \"a # b\"".toList [] (Or.inr rfl) (Or.inl rfl) (by decide) (by decide)
      (@LineRelaid.parted "make".toList "\"a # b\"".toList ['\t'] [' '] (by decide) htab hspace)
  have hcommented : Relaid "# who\n[about]\r\nmake\t= \"a # b\"".toList
      "# who\n[about]\r\nmake\t= \"a # b\"# by".toList := by
    simpa using @Relaid.line "# who\n[about]\r\n".toList "make\t= \"a # b\"".toList
      "make\t= \"a # b\"# by".toList [] (Or.inr rfl) (Or.inl rfl) (by decide) (by decide)
      (@LineRelaid.commented "make\t= \"a # b\"".toList " by".toList (Or.inl (by decide)))
  have happended : Relaid "# who\n[about]\r\nmake\t= \"a # b\"# by".toList
      "# who\n[about]\r\nmake\t= \"a # b\"# by\n ".toList := by
    simpa using @Relaid.appended "# who\n[about]\r\nmake\t= \"a # b\"# by".toList [' '] (by decide)
      ⟨[' '], [], [], hspace, isBlankText_nil, Or.inl rfl, rfl⟩
  have hall := (((Relation.EqvGen.rel _ _ hinserted).trans _ _ _ (.rel _ _ hreturned)).trans _ _ _
    (.rel _ _ hparted)).trans _ _ _ ((Relation.EqvGen.rel _ _ hcommented).trans _ _ _
      (.rel _ _ happended))
  exact ⟨hall, relaid_text_reads_alike hall⟩

end FrontPanel.Settings
