import Mathlib.Data.List.Induction
import FrontPanel.Proofs.Settings.Key
import FrontPanel.Proofs.Text.Lines

/-!
# The last assignment counts

In a text that is read, each key has the value of the last line that assigns it in its own section, or
its default; sections may come again, and no other line has a say. A text that is refused is refused for
its first line that cannot be followed, whatever stands behind that line.
-/

namespace FrontPanel.Settings

set_option autoImplicit false

/-- The section that a header opens. -/
def opened (line : List Char) : Option Heading :=
  match Statement.ofLine line with
  | .ok (.header name) => (Heading.ofName name).toOption
  | _ => none

/-- The section that the line with this number stands in: that of the last header above. -/
def sectionAt (ls : List (List Char)) (i : Nat) : Option Heading :=
  ((ls.take i).filterMap opened).getLast?

/-- A line of this section assigns the value to the key. -/
def Key.Gives (k : Key) (section? : Option Heading) (line value : List Char) : Prop :=
  ∃ name, Statement.ofLine line = .ok (.assignment name value) ∧ k.Named section? name

def Key.GivenAt (k : Key) (ls : List (List Char)) (i : Nat) (value : List Char) : Prop :=
  ∃ line, ls[i]? = some line ∧ k.Gives (sectionAt ls i) line value

/-- The value is what the last line that assigns the key says. -/
def Key.LastGiven (k : Key) (ls : List (List Char)) (value : List Char) : Prop :=
  ∃ i, k.GivenAt ls i value ∧ ∀ j value', i < j → ¬ k.GivenAt ls j value'

/-- The cause for which a line of this section cannot be followed. -/
inductive Refused (section? : Option Heading) (line : List Char) : SettingsError → Prop
  | form {e : SettingsError} (hline : Statement.ofLine line = .error e) : Refused section? line e
  | header {name : List Char} {e : SettingsError} (hline : Statement.ofLine line = .ok (.header name))
      (hname : Heading.ofName name = .error e) : Refused section? line e
  | key {name value : List Char} (hline : Statement.ofLine line = .ok (.assignment name value))
      (hnone : ∀ k : Key, ¬ k.Named section? name) : Refused section? line .unknownKey
  | value {k : Key} {value : List Char} {e : SettingsError} (hgives : k.Gives section? line value)
      (hread : k.read value = .error e) : Refused section? line e

def RefusedAt (ls : List (List Char)) (i : Nat) (e : SettingsError) : Prop :=
  ∃ line, ls[i]? = some line ∧ Refused (sectionAt ls i) line e

theorem Key.Gives.key_unique {k k' : Key} {section? : Option Heading} {line value value' : List Char}
    (h : k.Gives section? line value) (h' : k'.Gives section? line value') : k = k' := by
  obtain ⟨name, hline, hheading, hname⟩ := h
  obtain ⟨name', hline', hheading', hname'⟩ := h'
  rw [hline] at hline'
  cases hline'
  rw [hheading] at hheading'
  exact Key.eq_of_name (Option.some.inj hheading') (String.toList_inj.mp (hname ▸ hname'))

theorem Key.Gives.value_unique {k k' : Key} {section? section?' : Option Heading}
    {line value value' : List Char} (h : k.Gives section? line value)
    (h' : k'.Gives section?' line value') : value = value' := by
  obtain ⟨name, hline, _⟩ := h
  obtain ⟨name', hline', _⟩ := h'
  rw [hline] at hline'
  cases hline'
  rfl

theorem Refused.ne_nil {section? : Option Heading} {line : List Char} {e : SettingsError}
    (h : Refused section? line e) : line ≠ [] := by
  rintro rfl
  have hempty : Statement.ofLine [] = .ok .nothing := rfl
  cases h with
  | form hline => cases hempty.symm.trans hline
  | header hline _ => cases hempty.symm.trans hline
  | key hline _ => cases hempty.symm.trans hline
  | value hgives _ =>
    obtain ⟨_, hline, _⟩ := hgives
    cases hempty.symm.trans hline

/-- What following a line does. -/
inductive Followed (r : Reading) (line : List Char) : Reading → Prop
  | nothing (hline : Statement.ofLine line = .ok .nothing) : Followed r line r
  | header {name : List Char} {heading : Heading} (hline : Statement.ofLine line = .ok (.header name))
      (hname : Heading.ofName name = .ok heading) : Followed r line { r with heading := some heading }
  | assignment {k : Key} {value : List Char} {v : k.Value} (hgives : k.Gives r.heading line value)
      (hread : k.read value = .ok v) :
      Followed r line { r with settings := r.settings.set (k.setting v) }

/-- A line is followed, or refused for a cause that lies in the line and its section alone. -/
theorem Reading.next_cases (r : Reading) (line : List Char) :
    (∃ r', r.next line = .ok r' ∧ Followed r line r') ∨
      ∃ e, r.next line = .error e ∧ Refused r.heading line e := by
  unfold next
  cases hline : Statement.ofLine line with
  | error e => exact Or.inr ⟨e, rfl, .form hline⟩
  | ok st =>
    change (∃ r', r.follow st = .ok r' ∧ _) ∨ ∃ e, r.follow st = .error e ∧ _
    cases st with
    | nothing => exact Or.inl ⟨r, rfl, .nothing hline⟩
    | header name =>
      simp only [follow]
      cases hname : Heading.ofName name with
      | ok heading => exact Or.inl ⟨_, rfl, .header hline hname⟩
      | error e => exact Or.inr ⟨e, rfl, .header hline hname⟩
    | assignment name value =>
      simp only [follow]
      by_cases hknown : ∃ k : Key, k.Named r.heading name
      · obtain ⟨k, hk⟩ := hknown
        rw [readSetting_named hk]
        cases hread : k.read value with
        | ok v => exact Or.inl ⟨_, rfl, .assignment ⟨name, hline, hk⟩ hread⟩
        | error e => exact Or.inr ⟨e, rfl, .value ⟨name, hline, hk⟩ hread⟩
      · have hnone : ∀ k : Key, ¬ k.Named r.heading name := fun k hk => hknown ⟨k, hk⟩
        rw [readSetting_unknown hnone]
        exact Or.inr ⟨_, rfl, .key hline hnone⟩

theorem Refused.next_eq {r : Reading} {line : List Char} {e : SettingsError}
    (h : Refused r.heading line e) : r.next line = .error e := by
  unfold Reading.next
  cases h with
  | form hline =>
    rw [hline]
    rfl
  | @header name _ hline hname =>
    rw [hline]
    change (Heading.ofName name).map _ = _
    rw [hname]
    rfl
  | @key name value hline hnone =>
    rw [hline]
    change (readSetting r.heading name value).map _ = _
    rw [readSetting_unknown hnone]
    rfl
  | @value k value _ hgives hread =>
    obtain ⟨name, hline, hnamed⟩ := hgives
    rw [hline]
    change (readSetting r.heading name value).map _ = _
    rw [readSetting_named hnamed, hread]
    rfl

theorem Reading.followed_of_ok {r r' : Reading} {line : List Char} (h : r.next line = .ok r') :
    Followed r line r' := by
  rcases r.next_cases line with ⟨_, hnext, hfollowed⟩ | ⟨_, hnext, _⟩
  · cases h.symm.trans hnext
    exact hfollowed
  · cases h.symm.trans hnext

theorem Reading.refused_of_error {r : Reading} {line : List Char} {e : SettingsError}
    (h : r.next line = .error e) : Refused r.heading line e := by
  rcases r.next_cases line with ⟨_, hnext, _⟩ | ⟨_, hnext, hrefused⟩
  · cases h.symm.trans hnext
  · cases h.symm.trans hnext
    exact hrefused

namespace Followed

variable {r r' : Reading} {line : List Char}

theorem heading_eq (h : Followed r line r') : r'.heading = (opened line).or r.heading := by
  unfold opened
  cases h with
  | nothing hline => simp [hline]
  | header hline hname => simp [hline, hname, Except.toOption]
  | assignment hgives _ =>
    obtain ⟨_, hline, _⟩ := hgives
    simp [hline]

theorem read_of_gives (h : Followed r line r') {k : Key} {value : List Char}
    (hk : k.Gives r.heading line value) : k.read value = .ok (k.get r'.settings) := by
  cases h with
  | nothing hline =>
    obtain ⟨_, hline', _⟩ := hk
    cases hline.symm.trans hline'
  | header hline _ =>
    obtain ⟨_, hline', _⟩ := hk
    cases hline.symm.trans hline'
  | assignment hgives hread =>
    cases hgives.key_unique hk
    cases hgives.value_unique hk
    rw [hread, Key.get_set_self]

theorem get_of_not_gives (h : Followed r line r') {k : Key}
    (hk : ∀ value, ¬ k.Gives r.heading line value) : k.get r'.settings = k.get r.settings := by
  cases h with
  | nothing _ => rfl
  | header _ _ => rfl
  | assignment hgives _ =>
    refine Key.get_set_of_ne ?_ _ _
    rintro rfl
    exact hk _ hgives

end Followed

section Append

variable {ls more : List (List Char)} {line : List Char} {i : Nat}

theorem sectionAt_append (hi : i ≤ ls.length) : sectionAt (ls ++ more) i = sectionAt ls i := by
  unfold sectionAt
  rw [List.take_append_of_le_length hi]

theorem sectionAt_concat :
    sectionAt (ls ++ [line]) (ls ++ [line]).length = (opened line).or (sectionAt ls ls.length) := by
  unfold sectionAt
  rw [List.take_length, List.take_length, List.filterMap_append, List.getLast?_append]
  cases hopened : opened line with
  | none => simp [hopened]
  | some heading => simp [hopened]

theorem Key.GivenAt.lt_length {k : Key} {value : List Char} (h : k.GivenAt ls i value) :
    i < ls.length := by
  obtain ⟨_, hline, _⟩ := h
  exact (List.getElem?_eq_some_iff.mp hline).1

theorem Key.givenAt_append (hi : i < ls.length) {k : Key} {value : List Char} :
    k.GivenAt (ls ++ more) i value ↔ k.GivenAt ls i value := by
  unfold GivenAt
  rw [List.getElem?_append_left hi, sectionAt_append (Nat.le_of_lt hi)]

theorem Key.givenAt_concat {k : Key} {value : List Char} :
    k.GivenAt (ls ++ [line]) ls.length value ↔ k.Gives (sectionAt ls ls.length) line value := by
  unfold GivenAt
  rw [List.getElem?_concat_length, sectionAt_append (Nat.le_refl _)]
  simp

theorem refusedAt_append (hi : i < ls.length) {e : SettingsError} :
    RefusedAt (ls ++ more) i e ↔ RefusedAt ls i e := by
  unfold RefusedAt
  rw [List.getElem?_append_left hi, sectionAt_append (Nat.le_of_lt hi)]

theorem refusedAt_concat {e : SettingsError} :
    RefusedAt (ls ++ [line]) ls.length e ↔ Refused (sectionAt ls ls.length) line e := by
  unfold RefusedAt
  rw [List.getElem?_concat_length, sectionAt_append (Nat.le_refl _)]
  simp

end Append

/-- The reading has followed these lines. -/
structure Reflects (ls : List (List Char)) (r : Reading) : Prop where
  heading : r.heading = sectionAt ls ls.length
  accepted : ∀ i e, ¬ RefusedAt ls i e
  given : ∀ (k : Key) value, k.LastGiven ls value → k.read value = .ok (k.get r.settings)
  untouched : ∀ k : Key, (∀ i value, ¬ k.GivenAt ls i value) → k.get r.settings = k.get {}

theorem reflects_nil : Reflects [] {} where
  heading := rfl
  accepted _ _ := fun ⟨_, hline, _⟩ => nomatch hline
  given _ _ := fun ⟨_, ⟨_, hline, _⟩, _⟩ => nomatch hline
  untouched _ _ := rfl

/-- The step lemma: a line that is followed opens its section, sets its key and leaves all else. -/
theorem Reflects.step {ls : List (List Char)} {line : List Char} {r r' : Reading}
    (h : Reflects ls r) (hnext : r.next line = .ok r') : Reflects (ls ++ [line]) r' := by
  have hfollowed := Reading.followed_of_ok hnext
  have hsection := h.heading
  refine ⟨?_, fun i e hrefused => ?_, fun k value hlast => ?_, fun k hnone => ?_⟩
  · rw [sectionAt_concat, hfollowed.heading_eq, hsection]
  · have hlt : i < (ls ++ [line]).length := by
      obtain ⟨_, hline, _⟩ := hrefused
      exact (List.getElem?_eq_some_iff.mp hline).1
    rw [List.length_append, List.length_singleton] at hlt
    rcases Nat.lt_succ_iff_lt_or_eq.mp hlt with hlt | rfl
    · exact h.accepted i e ((refusedAt_append hlt).mp hrefused)
    · rw [refusedAt_concat, ← hsection] at hrefused
      cases hnext.symm.trans hrefused.next_eq
  · obtain ⟨i, hgiven, hlater⟩ := hlast
    have hlt := hgiven.lt_length
    rw [List.length_append, List.length_singleton] at hlt
    rcases Nat.lt_succ_iff_lt_or_eq.mp hlt with hlt | rfl
    · have hnot : ∀ value', ¬ k.Gives r.heading line value' := fun value' hgives =>
        hlater ls.length value' hlt (Key.givenAt_concat.mpr (hsection ▸ hgives))
      rw [hfollowed.get_of_not_gives hnot]
      refine h.given k value ⟨i, (Key.givenAt_append hlt).mp hgiven, fun j value' hj hgiven' => ?_⟩
      exact hlater j value' hj ((Key.givenAt_append hgiven'.lt_length).mpr hgiven')
    · exact hfollowed.read_of_gives (hsection ▸ Key.givenAt_concat.mp hgiven)
  · have hnot : ∀ value, ¬ k.Gives r.heading line value := fun value hgives =>
      hnone ls.length value (Key.givenAt_concat.mpr (hsection ▸ hgives))
    rw [hfollowed.get_of_not_gives hnot]
    exact h.untouched k fun i value hgiven =>
      hnone i value ((Key.givenAt_append hgiven.lt_length).mpr hgiven)

/-- The run lemma. -/
theorem reflects_of_foldlM {ls : List (List Char)} {r : Reading}
    (h : ls.foldlM Reading.next {} = .ok r) : Reflects ls r := by
  induction ls using List.reverseRecOn generalizing r with
  | nil =>
    cases h
    exact reflects_nil
  | append_singleton ls line ih =>
    rw [List.foldlM_append] at h
    cases hls : ls.foldlM Reading.next {} with
    | error e =>
      rw [hls] at h
      cases h
    | ok r₀ =>
      rw [hls] at h
      have hnext : r₀.next line = .ok r := by
        rw [← h]
        exact (bind_pure (r₀.next line)).symm
      exact (ih hls).step hnext

/-- A row of lines is refused at the first of them that cannot be followed. -/
theorem exists_of_foldlM_error {ls : List (List Char)} {r : Reading} {e : SettingsError}
    (h : ls.foldlM Reading.next r = .error e) :
    ∃ before line after r', ls = before ++ line :: after ∧ before.foldlM Reading.next r = .ok r' ∧
      r'.next line = .error e := by
  induction ls generalizing r with
  | nil => cases h
  | cons line ls ih =>
    rw [List.foldlM_cons] at h
    cases hnext : r.next line with
    | error e' =>
      rw [hnext] at h
      cases h
      exact ⟨[], line, ls, r, rfl, rfl, hnext⟩
    | ok r₁ =>
      rw [hnext] at h
      obtain ⟨before, line', after, r', rfl, hbefore, herror⟩ := ih h
      refine ⟨line :: before, line', after, r', rfl, ?_, herror⟩
      rw [List.foldlM_cons, hnext]
      exact hbefore

theorem Key.exists_lastGiven {k : Key} {ls : List (List Char)} {i : Nat} {value : List Char}
    (h : k.GivenAt ls i value) : ∃ value', k.LastGiven ls value' := by
  induction ls using List.reverseRecOn generalizing i value with
  | nil => exact absurd h.lt_length (Nat.not_lt_zero i)
  | append_singleton ls line ih =>
    by_cases hend : ∃ value', k.GivenAt (ls ++ [line]) ls.length value'
    · obtain ⟨value', hend⟩ := hend
      refine ⟨value', ls.length, hend, fun j value'' hj hgiven => ?_⟩
      have hlt := hgiven.lt_length
      rw [List.length_append, List.length_singleton] at hlt
      omega
    · have hearlier : ∀ j value', k.GivenAt (ls ++ [line]) j value' → j < ls.length := by
        intro j value' hgiven
        have hlt := hgiven.lt_length
        rw [List.length_append, List.length_singleton] at hlt
        rcases Nat.lt_succ_iff_lt_or_eq.mp hlt with hlt | rfl
        · exact hlt
        · exact absurd ⟨value', hgiven⟩ hend
      obtain ⟨value', j, hgiven, hlater⟩ := ih ((givenAt_append (hearlier i value h)).mp h)
      refine ⟨value', j, (givenAt_append hgiven.lt_length).mpr hgiven, fun j' value'' hj hgiven' => ?_⟩
      exact hlater j' value'' hj ((givenAt_append (hearlier j' value'' hgiven')).mp hgiven')

/-- What is known of a key whose last assignment is known, or known to be missing. -/
theorem Reflects.get_eq {ls ls' : List (List Char)} {r r' : Reading} (h : Reflects ls r)
    (h' : Reflects ls' r') {k : Key} (hsame : ∀ value, k.LastGiven ls value ↔ k.LastGiven ls' value) :
    k.get r.settings = k.get r'.settings := by
  by_cases hgiven : ∃ value, k.LastGiven ls value
  · obtain ⟨value, hlast⟩ := hgiven
    have hread := h.given k value hlast
    rw [h'.given k value ((hsame value).mp hlast)] at hread
    exact (Except.ok.inj hread).symm
  · have hnone : ∀ i value, ¬ k.GivenAt ls i value := fun _ _ hgives =>
      hgiven (Key.exists_lastGiven hgives)
    have hnone' : ∀ i value, ¬ k.GivenAt ls' i value := fun _ _ hgives => by
      obtain ⟨value, hlast⟩ := Key.exists_lastGiven hgives
      exact hgiven ⟨value, (hsame value).mpr hlast⟩
    rw [h.untouched k hnone, h'.untouched k hnone']

theorem exists_reading_of_read {text : String} {s : Settings} (h : read text = .ok s) :
    ∃ r, Reflects (Text.lines text.toList) r ∧ r.settings = s := by
  unfold read at h
  cases hr : (Text.lines text.toList).foldlM Reading.next {} with
  | error e =>
    rw [hr] at h
    cases h
  | ok r =>
    rw [hr] at h
    cases h
    exact ⟨r, reflects_of_foldlM hr, rfl⟩

theorem read_of_refused {text : String} {before after : List (List Char)} {line : List Char}
    {r : Reading} {e : SettingsError} (htext : Text.lines text.toList = before ++ line :: after)
    (hbefore : before.foldlM Reading.next {} = .ok r) (hline : r.next line = .error e) :
    read text = .error e := by
  unfold read
  rw [htext, List.foldlM_append, hbefore]
  change ((line :: after).foldlM Reading.next r).map _ = _
  rw [List.foldlM_cons, hline]
  rfl

/-- In a text that is read, no line is refused, every key has the value of the last line that assigns it
in its own section, or its default if no line does, and in all texts with the same last assignment to the
key it has the same value. A text that is refused is refused for the first line that cannot be followed
in its section, with the cause that lies in this line; what stands behind the line can be replaced by
anything. -/
theorem last_assignment_counts (text : String) :
    match read text with
    | .ok s =>
      (∀ i e, ¬ RefusedAt (Text.lines text.toList) i e) ∧
      ∀ k : Key,
        (∀ value, k.LastGiven (Text.lines text.toList) value → k.read value = .ok (k.get s)) ∧
        ((∀ i value, ¬ k.GivenAt (Text.lines text.toList) i value) → k.get s = k.get {}) ∧
        ∀ (text' : String) s', read text' = .ok s' →
          (∀ value, k.LastGiven (Text.lines text'.toList) value ↔
            k.LastGiven (Text.lines text.toList) value) →
          k.get s' = k.get s
    | .error e =>
      ∃ before line after rest,
        Text.lines text.toList = before ++ line :: after ∧
        text.toList = Text.joined before ++ (line ++ rest) ∧ Text.EndsLine rest ∧
        (∀ i e', ¬ RefusedAt before i e') ∧ Refused (sectionAt before before.length) line e ∧
        ∀ rest', Text.EndsLine rest' →
          read (String.ofList (Text.joined before ++ (line ++ rest'))) = .error e := by
  cases hread : read text with
  | ok s =>
    obtain ⟨r, hr, rfl⟩ := exists_reading_of_read hread
    refine ⟨hr.accepted, fun k => ⟨hr.given k, hr.untouched k, fun text' s' hread' hsame => ?_⟩⟩
    obtain ⟨r', hr', rfl⟩ := exists_reading_of_read hread'
    exact hr'.get_eq hr hsame
  | error e =>
    have hlines : (Text.lines text.toList).foldlM Reading.next {} = .error e := by
      unfold read at hread
      cases hr : (Text.lines text.toList).foldlM Reading.next {} with
      | ok r =>
        rw [hr] at hread
        cases hread
      | error e' =>
        rw [hr] at hread
        cases hread
        rfl
    obtain ⟨before, line, after, r, hsplit, hbefore, herror⟩ := exists_of_foldlM_error hlines
    obtain ⟨rest, htext, hends⟩ := Text.exists_rest_of_lines hsplit
    have hr := reflects_of_foldlM hbefore
    have hrefused : Refused (sectionAt before before.length) line e :=
      hr.heading ▸ Reading.refused_of_error herror
    have hnewline : ∀ line' ∈ before ++ line :: after, '\n' ∉ line' := fun line' hline' =>
      Text.newline_not_mem_of_mem_lines (hsplit ▸ hline')
    refine ⟨before, line, after, rest, hsplit, htext, hends, hr.accepted, hrefused, ?_⟩
    intro rest' hends'
    obtain ⟨after', hafter⟩ := Text.lines_append_rest
      (hnewline line (List.mem_append_right before List.mem_cons_self)) hrefused.ne_nil hends'
    have hlines' : Text.lines (String.ofList (Text.joined before ++ (line ++ rest'))).toList =
        before ++ line :: after' := by
      rw [String.toList_ofList, Text.lines_joined_append
        (fun line' hline' => hnewline line' (List.mem_append_left _ hline')), hafter]
    exact read_of_refused hlines' hbefore herror

example : (read "[panel]\nwidth = 1\n[about]\nmake = x\n[panel]\nwidth = 2 # twice").map
    (fun s => (s.panel.width, s.panel.height, s.identity.make)) = .ok (2, 320, "x") := by
  decide

end FrontPanel.Settings
