import FrontPanel.Settings.Reader

/-!
# Written lines

How a statement is put on a line: blanks may stand at either end, inside the brackets of a header and
around the equals sign, and a comment may stand behind it. Such a line is read back as the statement,
whatever blanks and comment it has.
-/

namespace FrontPanel.Settings

set_option autoImplicit false

open Text (isBlank trim trimStart trimEnd)

def IsBlankText (text : List Char) : Prop := ∀ c ∈ text, isBlank c = true

/-- Does not begin or end with a blank. -/
structure IsTight (text : List Char) : Prop where
  first : ∀ c, text.head? = some c → isBlank c = false
  last : ∀ c, text.getLast? = some c → isBlank c = false

theorem isTight_nil : IsTight [] := by
  constructor <;> (intro c hc; cases hc)

theorem isTight_of_forall {text : List Char} (h : ∀ c ∈ text, isBlank c = false) : IsTight text :=
  ⟨fun c hc => h c (List.mem_of_mem_head? hc), fun c hc => h c (List.mem_of_mem_getLast? hc)⟩

theorem isTight_singleton {c : Char} (h : isBlank c = false) : IsTight [c] :=
  isTight_of_forall (List.forall_mem_singleton.mpr h)

/-- The ends of a text are those of its first and of its last part. -/
theorem IsTight.append {a b : List Char} (ha : IsTight a) (hb : IsTight b) (ha' : a ≠ [])
    (hb' : b ≠ []) (middle : List Char) : IsTight (a ++ (middle ++ b)) := by
  refine ⟨fun c hc => ha.first c ?_, fun c hc => hb.last c ?_⟩
  · rwa [List.head?_append, List.head?_eq_some_head ha', Option.some_or,
      ← List.head?_eq_some_head ha'] at hc
  · rwa [← List.append_assoc, List.getLast?_append, List.getLast?_eq_some_getLast hb', Option.some_or,
      ← List.getLast?_eq_some_getLast hb'] at hc

theorem trimStart_append {before text : List Char} (hbefore : IsBlankText before)
    (h : ∀ c, text.head? = some c → isBlank c = false) : trimStart (before ++ text) = text := by
  unfold trimStart
  rw [List.dropWhile_append_of_pos hbefore]
  cases text with
  | nil => rfl
  | cons c rest => exact List.dropWhile_cons_of_neg (by rw [h c rfl]; exact Bool.false_ne_true)

theorem trimEnd_append {text after : List Char} (hafter : IsBlankText after)
    (h : ∀ c, text.getLast? = some c → isBlank c = false) : trimEnd (text ++ after) = text := by
  have hblank : IsBlankText after.reverse := fun c hc => hafter c (List.mem_reverse.mp hc)
  have hfirst : ∀ c, text.reverse.head? = some c → isBlank c = false := fun c hc =>
    h c (by simpa using hc)
  have hstart := trimStart_append hblank hfirst
  unfold trimStart at hstart
  unfold trimEnd
  rw [List.reverse_append, hstart, List.reverse_reverse]

theorem trim_blank {text : List Char} (h : IsBlankText text) : trim text = [] := by
  have hstart := trimStart_append h isTight_nil.first
  rw [List.append_nil] at hstart
  unfold trim
  rw [hstart]
  rfl

/-- The blanks around a text are what trimming takes away. -/
theorem trim_spaced {before text after : List Char} (hbefore : IsBlankText before)
    (htext : IsTight text) (hafter : IsBlankText after) : trim (before ++ text ++ after) = text := by
  unfold trim
  cases text with
  | nil =>
    have hblank : IsBlankText (before ++ [] ++ after) := by
      intro c hc
      simp only [List.append_nil, List.mem_append] at hc
      exact hc.elim (hbefore c) (hafter c)
    exact trim_blank hblank
  | cons a rest =>
    have hfirst : ∀ c, (a :: rest ++ after).head? = some c → isBlank c = false := fun c hc =>
      htext.first c hc
    rw [List.append_assoc, trimStart_append hbefore hfirst, trimEnd_append hafter htext.last]

def IsComment (text : List Char) : Prop := text = [] ∨ text.head? = some '#'

/-- The quote that is open behind a text, unless a comment begins in it. -/
def quotedAfter : Bool → List Char → Option Bool
  | quoted, [] => some quoted
  | quoted, c :: rest =>
    if c = '"' then quotedAfter (!quoted) rest
    else if c = '#' ∧ quoted = false then none
    else quotedAfter quoted rest

theorem quotedAfter_append {q q' : Bool} {a : List Char} (h : quotedAfter q a = some q')
    (b : List Char) : quotedAfter q (a ++ b) = quotedAfter q' b := by
  induction a generalizing q with
  | nil =>
    cases h
    rfl
  | cons c rest ih =>
    simp only [List.cons_append, quotedAfter] at h ⊢
    split at h
    · rw [if_pos ‹_›]
      exact ih h
    split at h
    · cases h
    · rw [if_neg ‹¬ c = '"'›, if_neg ‹_›]
      exact ih h

theorem quotedAfter_of_forall {text : List Char} (h : ∀ c ∈ text, c ≠ '"' ∧ c ≠ '#') (q : Bool) :
    quotedAfter q text = some q := by
  induction text with
  | nil => rfl
  | cons c rest ih =>
    obtain ⟨hquote, hhash⟩ := h c List.mem_cons_self
    unfold quotedAfter
    rw [if_neg hquote, if_neg fun hc => hhash hc.1]
    exact ih fun c' hc' => h c' (List.mem_cons_of_mem c hc')

theorem quotedAfter_open {text : List Char} (h : '"' ∉ text) : quotedAfter true text = some true := by
  induction text with
  | nil => rfl
  | cons c rest ih =>
    obtain ⟨hc, hrest⟩ := List.ne_and_not_mem_of_not_mem_cons h
    unfold quotedAfter
    rw [if_neg fun h' => hc h'.symm, if_neg fun h' => Bool.noConfusion h'.2]
    exact ih hrest

theorem quotedAfter_quote {text : List Char} (h : '"' ∉ text) :
    quotedAfter false (Text.quote text) = some false := by
  unfold Text.quote quotedAfter
  rw [if_pos rfl, Bool.not_false, quotedAfter_append (quotedAfter_open h)]
  rfl

theorem uncommented_append {q q' : Bool} {a : List Char} (h : quotedAfter q a = some q')
    (b : List Char) : uncommented q (a ++ b) = a ++ uncommented q' b := by
  induction a generalizing q with
  | nil =>
    cases h
    rfl
  | cons c rest ih =>
    simp only [List.cons_append, quotedAfter, uncommented] at h ⊢
    split at h
    · rw [if_pos ‹_›, ih h]
    split at h
    · cases h
    · rw [if_neg ‹¬ c = '"'›, if_neg ‹_›, ih h]

theorem uncommented_comment {text : List Char} (h : IsComment text) :
    uncommented false text = [] := by
  rcases h with rfl | h
  · rfl
  · cases text with
    | nil => cases h
    | cons c rest =>
      cases h
      rfl

theorem quotedAfter_blank {text : List Char} (h : IsBlankText text) (q : Bool) :
    quotedAfter q text = some q := by
  apply quotedAfter_of_forall
  intro c hc
  constructor
  · rintro rfl
    exact absurd (h _ hc) (by decide)
  · rintro rfl
    exact absurd (h _ hc) (by decide)

/-- A text on a line, with blanks around it and a comment behind it. -/
def IsLineOf (text line : List Char) : Prop :=
  ∃ before after comment, IsBlankText before ∧ IsBlankText after ∧ IsComment comment ∧
    line = before ++ text ++ after ++ comment

theorem IsLineOf.trim_eq {text line : List Char} (h : IsLineOf text line)
    (hquotes : quotedAfter false text = some false) (htight : IsTight text) :
    trim (uncommented false line) = text := by
  obtain ⟨before, after, comment, hbefore, hafter, hcomment, rfl⟩ := h
  have hall : quotedAfter false (before ++ text ++ after) = some false := by
    rw [List.append_assoc, quotedAfter_append (quotedAfter_blank hbefore false),
      quotedAfter_append hquotes, quotedAfter_blank hafter]
  rw [uncommented_append hall, uncommented_comment hcomment, List.append_nil,
    trim_spaced hbefore htight hafter]

/-- A word that needs no quotes: not empty, and without characters that mean something on a line. -/
structure IsWord (text : List Char) : Prop where
  ne_nil : text ≠ []
  plain : ∀ c ∈ text, isBlank c = false ∧ c ∉ ['"', '#', '=', '[', ']']

/-- A value as a line can hold it behind the equals sign. -/
structure IsValueText (text : List Char) : Prop where
  tight : IsTight text
  closed : quotedAfter false text = some false
  ne_nil : text ≠ []

/-- The line says this, and nothing else. -/
inductive Shows : Statement → List Char → Prop
  | nothing {line : List Char} : IsLineOf [] line → Shows .nothing line
  | header {name before after line : List Char} : IsBlankText before → IsBlankText after →
      IsLineOf ('[' :: (before ++ name ++ after ++ [']'])) line → Shows (.header name) line
  | assignment {key value before after line : List Char} : IsBlankText before → IsBlankText after →
      IsLineOf (key ++ before ++ '=' :: (after ++ value)) line → Shows (.assignment key value) line

/-- The line that a statement is commonly put on. -/
def Statement.line : Statement → List Char
  | .nothing => []
  | .header name => '[' :: (name ++ [']'])
  | .assignment key value => key ++ [' ', '=', ' '] ++ value

theorem isBlankText_nil : IsBlankText [] := nofun

theorem IsLineOf.refl (text : List Char) : IsLineOf text text :=
  ⟨[], [], [], isBlankText_nil, isBlankText_nil, Or.inl rfl, by simp⟩

theorem Statement.shows_line (st : Statement) : Shows st st.line := by
  cases st with
  | nothing => exact .nothing (IsLineOf.refl [])
  | header name => exact .header isBlankText_nil isBlankText_nil (by simpa [line] using IsLineOf.refl _)
  | assignment key value =>
    have hspace : IsBlankText [' '] := by
      intro c hc
      cases List.mem_singleton.mp hc
      rfl
    exact .assignment hspace hspace (by simpa [line] using IsLineOf.refl _)

/-- What stands in a statement can be written. -/
def Statement.Writable : Statement → Prop
  | .nothing => True
  | .header name => IsWord name
  | .assignment key value => IsWord key ∧ IsValueText value

theorem splitAssignment_append {key rest : List Char} (h : '=' ∉ key) :
    splitAssignment (key ++ '=' :: rest) = some (key, rest) := by
  induction key with
  | nil => rfl
  | cons c key ih =>
    obtain ⟨hc, hkey⟩ := List.ne_and_not_mem_of_not_mem_cons h
    simp only [List.cons_append, splitAssignment]
    rw [if_neg fun h' => hc h'.symm, ih hkey]
    rfl

theorem IsWord.tight {text : List Char} (h : IsWord text) : IsTight text :=
  isTight_of_forall fun c hc => (h.plain c hc).1

theorem IsWord.quotedAfter_eq {text : List Char} (h : IsWord text) (q : Bool) :
    quotedAfter q text = some q := by
  apply quotedAfter_of_forall
  intro c hc
  have hplain := (h.plain c hc).2
  simp only [List.mem_cons, not_or] at hplain
  exact ⟨hplain.1, hplain.2.1⟩

theorem not_mem_blank {c : Char} (hc : isBlank c = false) {text : List Char}
    (h : IsBlankText text) : c ∉ text := fun hmem => by
  rw [h c hmem] at hc
  cases hc

/-- A written line is read as what it says. -/
theorem Shows.ofLine_eq {st : Statement} {line : List Char} (h : Shows st line)
    (hst : st.Writable) : Statement.ofLine line = .ok st := by
  cases h with
  | nothing hline =>
    have htrim := hline.trim_eq rfl isTight_nil
    unfold Statement.ofLine
    simp only [htrim, List.isEmpty_nil, if_true]
  | @header name before after line hbefore hafter hline =>
    have hname : IsWord name := hst
    have hquotes : quotedAfter false ('[' :: (before ++ name ++ after ++ [']'])) = some false := by
      have hinner : quotedAfter false (before ++ name ++ after ++ [']']) = some false := by
        rw [List.append_assoc, List.append_assoc, quotedAfter_append (quotedAfter_blank hbefore false),
          quotedAfter_append (hname.quotedAfter_eq false),
          quotedAfter_append (quotedAfter_blank hafter false)]
        rfl
      unfold quotedAfter
      rwa [if_neg (by decide), if_neg (by decide)]
    have hbracket : IsTight ['['] := isTight_singleton rfl
    have hclosing : IsTight [']'] := isTight_singleton rfl
    have htrim := hline.trim_eq hquotes (hbracket.append hclosing (by decide) (by decide) _)
    unfold Statement.ofLine
    simp only [htrim, List.isEmpty_cons, Bool.false_eq_true, if_false, List.head?_cons,
      List.tail_cons, List.dropLast_concat]
    rw [if_pos ⟨trivial, by rw [List.getLast?_cons, List.getLast?_append]; rfl⟩,
      trim_spaced hbefore hname.tight hafter]
  | @assignment key value before after line hbefore hafter hline =>
    obtain ⟨hkey, hvalue⟩ := hst
    have hquotes : quotedAfter false (key ++ before ++ '=' :: (after ++ value)) = some false := by
      rw [List.append_assoc, quotedAfter_append (hkey.quotedAfter_eq false),
        quotedAfter_append (quotedAfter_blank hbefore false)]
      unfold quotedAfter
      rw [if_neg (by decide), if_neg (by decide), quotedAfter_append (quotedAfter_blank hafter false)]
      exact hvalue.closed
    have htight := hkey.tight.append hvalue.tight hkey.ne_nil hvalue.ne_nil (before ++ '=' :: after)
    have htrim := hline.trim_eq hquotes (by simpa using htight)
    have hequals : '=' ∉ key ++ before := by
      intro hmem
      rcases List.mem_append.mp hmem with hmem | hmem
      · exact (hkey.plain _ hmem).2 (by decide)
      · exact not_mem_blank (by decide) hbefore hmem
    have hkeyTrim : trim (key ++ before) = key :=
      trim_spaced isBlankText_nil hkey.tight hbefore
    have hvalueTrim : trim (after ++ value) = value := by
      have hspaced := trim_spaced hafter hvalue.tight isBlankText_nil
      rwa [List.append_nil] at hspaced
    obtain ⟨c, rest, hcons⟩ := List.exists_cons_of_ne_nil hkey.ne_nil
    have hbracket : c ≠ '[' := by
      rintro rfl
      exact (hkey.plain '[' (hcons ▸ List.mem_cons_self)).2 (by decide)
    unfold Statement.ofLine
    simp only [htrim, splitAssignment_append hequals, hkeyTrim, hvalueTrim]
    rw [if_neg (by simp [hcons]), if_neg (by simp [hcons, hbracket])]

end FrontPanel.Settings
