import Mathlib.Data.List.TakeWhile
import FrontPanel.Proofs.Controller.Wiring

/-!
# Pin texts

A pin text is read twice: by the audit, which needs the number of the line alone, and by the settings, where
it stands in quotes. Both take exactly the same texts, for the same line, so that a pin that was audited is
the pin that the panel uses.
-/

namespace FrontPanel

set_option autoImplicit false

open Number (isDigit digitsValue)

namespace Text

/-- The text is digits of this value, perhaps behind a plus sign. -/
inductive IsNumeral : Nat → List Char → Prop
  | plain {digits : List Char} (hne : digits ≠ []) (hdigits : ∀ c ∈ digits, isDigit c = true) :
      IsNumeral (digitsValue digits) digits
  | plus {digits : List Char} (hne : digits ≠ []) (hdigits : ∀ c ∈ digits, isDigit c = true) :
      IsNumeral (digitsValue digits) ('+' :: digits)

theorem isNumeral_of_withoutPlus {text digits : List Char} (hdigits : withoutPlus text = digits)
    (hne : digits ≠ []) (hall : ∀ c ∈ digits, isDigit c = true) :
    IsNumeral (digitsValue digits) text := by
  unfold withoutPlus at hdigits
  split at hdigits
  · cases hdigits
    exact .plus hne hall
  · cases hdigits
    exact .plain hne hall

theorem natural?_plus (greatest : Nat) {digits : List Char}
    (hdigits : ∀ c ∈ digits, isDigit c = true) :
    natural? greatest ('+' :: digits) = natural? greatest digits := by
  unfold natural?
  rw [Settings.withoutPlus_digits hdigits]
  rfl

theorem natural?_eq_some_iff {greatest n : Nat} {text : List Char} :
    natural? greatest text = some n ↔ IsNumeral n text ∧ n ≤ greatest := by
  constructor
  · intro h
    refine ⟨?_, natural?_le h⟩
    unfold natural? at h
    simp only at h
    split at h
    · cases h
    · next hform =>
      simp only [Bool.or_eq_true, List.isEmpty_iff, Bool.not_eq_true', not_or, Bool.not_eq_false,
        List.all_eq_true] at hform
      split at h
      · cases h
        exact isNumeral_of_withoutPlus rfl hform.1 hform.2
      · cases h
  · rintro ⟨h, hle⟩
    cases h with
    | plain hne hdigits => rw [Settings.natural?_digits greatest hne hdigits, if_pos hle]
    | plus hne hdigits =>
      rw [natural?_plus greatest hdigits, Settings.natural?_digits greatest hne hdigits, if_pos hle]

/-- A letter that is folded to `l` is `l` itself or its capital. -/
theorem eq_or_eq_of_toLower {c l u : Char} (h : c.toLower = l) (hcapital : u.val + 32 = l.val) :
    c = l ∨ c = u := by
  unfold Char.toLower at h
  split at h
  · have hval : c.val + 32 = u.val + 32 := (congrArg Char.val h).trans hcapital.symm
    exact Or.inr (Char.ext (by grind))
  · exact Or.inl h

theorem IsNumeral.mem {n : Nat} {text : List Char} (h : IsNumeral n text) {c : Char}
    (hc : c ∈ text) : c = '+' ∨ isDigit c = true := by
  cases h with
  | plain _ hdigits => exact Or.inr (hdigits c hc)
  | plus _ hdigits => exact (List.mem_cons.mp hc).imp_right (hdigits c)

theorem quote_injective {a b : List Char} (h : quote a = quote b) : a = b := by
  rw [← unquote_quote a, h, unquote_quote]

theorem unquote_of_not_quoted {value : List Char} (h : ∀ inner, value ≠ quote inner) :
    unquote value = value := by
  unfold unquote
  split
  · next rest =>
    split
    · next hlast =>
      have hrest : rest = rest.dropLast ++ ['"'] := (List.dropLast_append_getLast? '"' hlast).symm
      exact absurd (congrArg (List.cons '"') hrest) (h rest.dropLast)
    · rfl
  · rfl

/-- One pair of quotes is taken off, and only a whole pair. -/
theorem unquote_eq_iff {value text : List Char} :
    unquote value = text ↔ value = quote text ∨ value = text ∧ ∀ inner, value ≠ quote inner := by
  by_cases hquoted : ∃ inner, value = quote inner
  · obtain ⟨inner, rfl⟩ := hquoted
    rw [unquote_quote]
    constructor
    · rintro rfl
      exact .inl rfl
    · rintro (h | ⟨_, hnone⟩)
      · exact quote_injective h
      · exact absurd rfl (hnone inner)
  · have hnone : ∀ inner, value ≠ quote inner := fun inner h => hquoted ⟨inner, h⟩
    rw [unquote_of_not_quoted hnone]
    simp [hnone]

end Text

namespace Pin

/-- The word for a line that is not connected, in any case of its letters. -/
def unconnectedWords : List (List Char) := [['n', 'c'], ['n', 'C'], ['N', 'c'], ['N', 'C']]

/-- How a pin is written, or that there is none. -/
inductive WrittenAs : Option Pin → List Char → Prop
  | unconnected {text : List Char} (hword : text ∈ unconnectedWords) : WrittenAs none text
  | connected {marks numeral : List Char} {n : Nat} (hmarks : ∀ c ∈ marks, isMark c = true)
      (hnumeral : Text.IsNumeral n numeral) (hlast : n ≤ last) :
      WrittenAs (some ⟨n, marks.contains '!', marks.contains '^'⟩)
        (marks ++ 'g' :: 'p' :: 'i' :: 'o' :: numeral)

theorem sameFolded_iff {text : List Char} :
    Text.sameFolded text ['n', 'c'] = true ↔ text ∈ unconnectedWords := by
  constructor
  · intro h
    have hmap : text.map Char.toLower = ['n', 'c'] := beq_iff_eq.mp h
    obtain ⟨a, rest, rfl, ha, hrest⟩ := List.map_eq_cons_iff.mp hmap
    obtain ⟨b, rest, rfl, hb, hrest⟩ := List.map_eq_cons_iff.mp hrest
    cases List.map_eq_nil_iff.mp hrest
    have ha' : a = 'n' ∨ a = 'N' := Text.eq_or_eq_of_toLower ha rfl
    have hb' : b = 'c' ∨ b = 'C' := Text.eq_or_eq_of_toLower hb rfl
    rcases ha' with rfl | rfl <;> rcases hb' with rfl | rfl <;> decide
  · have hall : ∀ word ∈ unconnectedWords, Text.sameFolded word ['n', 'c'] = true := by decide
    exact hall text

theorem number?_eq_some_iff {text : List Char} {n : Nat} :
    number? text = some n ↔ ∃ numeral, text = 'g' :: 'p' :: 'i' :: 'o' :: numeral ∧
      Text.IsNumeral n numeral ∧ n ≤ last := by
  constructor
  · intro h
    unfold number? at h
    split at h
    · next numeral => exact ⟨numeral, rfl, Text.natural?_eq_some_iff.mp h⟩
    · cases h
  · rintro ⟨numeral, rfl, h⟩
    exact Text.natural?_eq_some_iff.mpr h

/-- The marks are what stands in front of the name of the line. -/
theorem span_marks {marks : List Char} (hmarks : ∀ c ∈ marks, isMark c = true) (numeral : List Char) :
    (marks ++ 'g' :: 'p' :: 'i' :: 'o' :: numeral).takeWhile isMark = marks ∧
      (marks ++ 'g' :: 'p' :: 'i' :: 'o' :: numeral).dropWhile isMark =
        'g' :: 'p' :: 'i' :: 'o' :: numeral := by
  have hname : ¬ isMark 'g' = true := by decide
  rw [List.takeWhile_append_of_pos hmarks, List.dropWhile_append_of_pos hmarks,
    List.takeWhile_cons_of_neg hname, List.dropWhile_cons_of_neg hname, List.append_nil]
  exact ⟨rfl, rfl⟩

theorem writtenAs_of_number? {text : List Char} {n : Nat}
    (h : number? (text.dropWhile isMark) = some n) :
    WrittenAs (some ⟨n, (text.takeWhile isMark).contains '!', (text.takeWhile isMark).contains '^'⟩)
      text := by
  obtain ⟨numeral, hrest, hnumeral, hlast⟩ := number?_eq_some_iff.mp h
  have hmarks : ∀ c ∈ text.takeWhile isMark, isMark c = true := fun c hc => List.mem_takeWhile_imp hc
  have htext : text.takeWhile isMark ++ 'g' :: 'p' :: 'i' :: 'o' :: numeral = text := by
    rw [← hrest, List.takeWhile_append_dropWhile]
  have hwritten := WrittenAs.connected hmarks hnumeral hlast
  rwa [htext] at hwritten

theorem not_mem_unconnectedWords (marks numeral : List Char) :
    marks ++ 'g' :: 'p' :: 'i' :: 'o' :: numeral ∉ unconnectedWords := by
  intro hword
  have hall : ∀ word ∈ unconnectedWords, word.length = 2 := by decide
  have hlength := hall _ hword
  simp only [List.length_append, List.length_cons] at hlength
  omega

/-- Reading takes what is written, and nothing else. -/
theorem read_eq_ok_iff {value : List Char} {pin : Option Pin} :
    read value = .ok pin ↔ WrittenAs pin (Text.unquote value) := by
  unfold read
  generalize Text.unquote value = text
  simp only
  constructor
  · intro h
    split at h
    · next hfolded =>
      cases h
      exact .unconnected (sameFolded_iff.mp hfolded)
    · split at h
      · next hnumber =>
        cases h
        exact writtenAs_of_number? hnumber
      · cases h
  · intro h
    cases h with
    | unconnected hword => rw [if_pos (sameFolded_iff.mpr hword)]
    | @connected marks numeral n hmarks hnumeral hlast =>
      obtain ⟨htake, hdrop⟩ := span_marks hmarks numeral
      rw [if_neg (mt sameFolded_iff.mp (not_mem_unconnectedWords marks numeral)), htake, hdrop,
        number?_eq_some_iff.mpr ⟨numeral, rfl, hnumeral, hlast⟩]

theorem read_eq_error_iff {value : List Char} {e : SettingsError} :
    read value = .error e ↔ e = .invalidPin ∧ ∀ pin, ¬ WrittenAs pin (Text.unquote value) := by
  simp only [← read_eq_ok_iff]
  unfold read
  simp only
  split
  · simp
  · split
    · simp
    · simp [eq_comm]

/-- What is written as a pin can stand between quotes. -/
theorem WrittenAs.not_mem_quote {pin : Option Pin} {text : List Char} (h : WrittenAs pin text) :
    '"' ∉ text := by
  cases h with
  | unconnected hword =>
    have hall : ∀ word ∈ unconnectedWords, '"' ∉ word := by decide
    exact hall text hword
  | connected hmarks hnumeral _ =>
    intro hc
    rcases List.mem_append.mp hc with hc | hc
    · exact absurd (hmarks _ hc) (by decide)
    · simp only [List.mem_cons, Char.reduceEq, false_or] at hc
      exact absurd (hnumeral.mem hc) (by decide)

/-- The name of the line is a numeral up to 29 behind `gpio`, and any marks stand in front. `!` is among
them if the line is inverted, and `^` if it has a pull-up. -/
def SpelledAs (pin : Pin) (text : List Char) : Prop :=
  ∃ marks numeral, text = marks ++ ['g', 'p', 'i', 'o'] ++ numeral ∧
    (∀ c ∈ marks, c = '!' ∨ c = '^') ∧ Text.IsNumeral pin.number numeral ∧ pin.number ≤ 29 ∧
      (pin.inverted = true ↔ '!' ∈ marks) ∧ (pin.pullUp = true ↔ '^' ∈ marks)

theorem isMark_iff {c : Char} : isMark c = true ↔ c = '!' ∨ c = '^' := by
  simp [isMark]

theorem writtenAs_none_iff {text : List Char} : WrittenAs none text ↔ text ∈ unconnectedWords := by
  constructor
  · intro h
    cases h
    assumption
  · exact .unconnected

theorem writtenAs_some_iff {pin : Pin} {text : List Char} :
    WrittenAs (some pin) text ↔ pin.SpelledAs text := by
  constructor
  · intro h
    cases h with
    | @connected marks numeral n hmarks hnumeral hlast =>
      refine ⟨marks, numeral, by simp, fun c hc => isMark_iff.mp (hmarks c hc), hnumeral, hlast, ?_, ?_⟩
      · exact List.contains_iff_mem
      · exact List.contains_iff_mem
  · rintro ⟨marks, numeral, rfl, hmarks, hnumeral, hlast, hinverted, hpullUp⟩
    have hflag {flag : Bool} {mark : Char} (h : flag = true ↔ mark ∈ marks) :
        flag = marks.contains mark := Bool.eq_iff_iff.mpr (h.trans List.contains_iff_mem.symm)
    obtain ⟨number, inverted, pullUp⟩ := pin
    cases hflag hinverted
    cases hflag hpullUp
    rw [List.append_assoc]
    exact .connected (fun c hc => isMark_iff.mpr (hmarks c hc)) hnumeral hlast

/-- Reading takes the pair of quotes off, if there is one, and then takes exactly the texts of the grammar:
the word for no connection in any case, or marks, name and numeral. It refuses all else as no pin. -/
theorem read_iff_spelled (value : List Char) :
    let text := Text.unquote value
    (∀ inner, text = inner ↔
      value = Text.quote inner ∨ value = inner ∧ ∀ other, value ≠ Text.quote other) ∧
    (read value = .ok none ↔ text ∈ unconnectedWords) ∧
    (∀ pin, read value = .ok (some pin) ↔ pin.SpelledAs text) ∧
    ∀ e, read value = .error e ↔
      e = .invalidPin ∧ text ∉ unconnectedWords ∧ ∀ pin : Pin, ¬ pin.SpelledAs text := by
  intro text
  refine ⟨fun inner => Text.unquote_eq_iff, ?_, fun pin => ?_, fun e => ?_⟩
  · rw [read_eq_ok_iff, writtenAs_none_iff]
  · rw [read_eq_ok_iff, writtenAs_some_iff]
  · rw [read_eq_error_iff, Option.forall, writtenAs_none_iff]
    simp only [writtenAs_some_iff]
    rfl

end Pin

namespace Settings

theorem Audit.pinNumber_eq_ok_iff {key text : String} {number : Option Nat} :
    Audit.pinNumber key text = .ok number ↔
      ∃ pin, Pin.WrittenAs pin text.toList ∧ pin.map Pin.number = number := by
  rw [Audit.pinNumber_eq]
  constructor
  · intro h
    cases hread : Pin.read (Text.quote text.toList) with
    | error e =>
      rw [hread] at h
      cases h
    | ok pin =>
      rw [hread] at h
      rw [Pin.read_eq_ok_iff, Text.unquote_quote] at hread
      exact ⟨pin, hread, Except.ok.inj h⟩
  · rintro ⟨pin, hwritten, rfl⟩
    rw [← Text.unquote_quote text.toList, ← Pin.read_eq_ok_iff] at hwritten
    rw [hwritten]
    rfl

theorem Audit.pinNumber_eq_error_iff {key text : String} {finding : Audit.Finding} :
    Audit.pinNumber key text = .error finding ↔
      finding = Audit.pinFault key text ∧ ∀ pin, ¬ Pin.WrittenAs pin text.toList := by
  rw [Audit.pinNumber_eq]
  constructor
  · intro h
    cases hread : Pin.read (Text.quote text.toList) with
    | error e =>
      rw [hread] at h
      rw [Pin.read_eq_error_iff, Text.unquote_quote] at hread
      exact ⟨(Except.error.inj h).symm, hread.2⟩
    | ok pin =>
      rw [hread] at h
      cases h
  · rintro ⟨rfl, hnone⟩
    rw [← Text.unquote_quote text.toList] at hnone
    rw [Pin.read_eq_error_iff.mpr ⟨rfl, hnone⟩]
    rfl

/-- A text is accepted as a pin exactly if it is read as one. -/
theorem Audit.toOption_pinNumber (key text : String) :
    (Audit.pinNumber key text).toOption =
      (Pin.read (Text.quote text.toList)).toOption.map (Option.map Pin.number) := by
  rw [Audit.pinNumber_eq]
  cases Pin.read (Text.quote text.toList) with
  | error e => rfl
  | ok pin => rfl

theorem isWord_key (role : Role) : IsWord role.key.toList := by
  obtain ⟨entry, hentry, hkey⟩ : ∃ entry ∈ Audit.catalogue, role.key ∈ entry.2 :=
    ⟨_, List.mem_cons_self, by cases role <;> decide⟩
  exact (catalogue_names entry hentry).2.2 role.key hkey

/-- A line of the panel section that assigns the quoted text to the key of a role sets the pin of the role. -/
theorem Reading.next_of_shows_pin {r : Reading} (hpanel : r.heading = some .panel) {role : Role}
    {text line : List Char} {pin : Option Pin} (htext : Pin.WrittenAs pin text)
    (hline : Shows (.assignment role.key.toList (Text.quote text)) line) :
    r.next line = .ok { r with settings := r.settings.set (role.setting pin) } := by
  have hwritable : Statement.Writable (.assignment role.key.toList (Text.quote text)) :=
    ⟨isWord_key role, isValueText_quote htext.not_mem_quote⟩
  have hread : Pin.read (Text.quote text) = .ok pin := by
    rw [Pin.read_eq_ok_iff, Text.unquote_quote]
    exact htext
  unfold Reading.next
  rw [hline.ofLine_eq hwritable]
  change (readSetting r.heading role.key.toList (Text.quote text)).map _ = _
  rw [hpanel]
  change (readPanelSetting (String.ofList role.key.toList) (Text.quote text)).map _ = _
  rw [String.ofList_toList, readPanelSetting_key, hread]
  rfl

/-- The audit and the settings, where the text stands in quotes, agree on every text: they take it for the
same line, or both for none, or both refuse it. They take what is written as a pin and nothing else. And a
line of the panel section that assigns an accepted text to a role gives the role the pin that was audited,
and no other role another one. -/
theorem audited_pin_is_read (text : String) :
    (∀ key, (Audit.pinNumber key text).toOption =
      (Pin.read (Text.quote text.toList)).toOption.map (Option.map Pin.number)) ∧
    (∀ pin, Pin.read (Text.quote text.toList) = .ok pin ↔ Pin.WrittenAs pin text.toList) ∧
    (∀ e, Pin.read (Text.quote text.toList) = .error e ↔
      e = .invalidPin ∧ ∀ pin, ¬ Pin.WrittenAs pin text.toList) ∧
    (∀ key number, Audit.pinNumber key text = .ok number ↔
      ∃ pin, Pin.WrittenAs pin text.toList ∧ pin.map Pin.number = number) ∧
    (∀ key finding, Audit.pinNumber key text = .error finding ↔
      finding = Audit.pinFault key text ∧ ∀ pin, ¬ Pin.WrittenAs pin text.toList) ∧
    ∀ (role : Role) (number : Option Nat) (r : Reading) (line : List Char),
      Audit.pinNumber role.key text = .ok number → r.heading = some .panel →
      Shows (.assignment role.key.toList (Text.quote text.toList)) line →
      ∃ r', r.next line = .ok r' ∧ (role.pin r'.settings.panel).map Pin.number = number ∧
        ∀ other ≠ role, other.pin r'.settings.panel = other.pin r.settings.panel := by
  refine ⟨fun key => Audit.toOption_pinNumber key text, fun pin => ?_, fun e => ?_,
    fun key number => Audit.pinNumber_eq_ok_iff, fun key finding => Audit.pinNumber_eq_error_iff, ?_⟩
  · rw [Pin.read_eq_ok_iff, Text.unquote_quote]
  · rw [Pin.read_eq_error_iff, Text.unquote_quote]
  · intro role number r line haccepted hpanel hline
    obtain ⟨pin, hwritten, hnumber⟩ := Audit.pinNumber_eq_ok_iff.mp haccepted
    refine ⟨_, Reading.next_of_shows_pin hpanel hwritten hline, ?_, fun other hne => ?_⟩
    · rw [pin_set_setting, hnumber]
    · exact pin_set_of_ne r.settings hne pin

/-- Marks, a plus sign and a leading zero. -/
theorem marked_pin_is_read :
    Audit.pinNumber Role.click.key "^!gpio+07" = .ok (some 7) ∧
      ∃ r', ({ heading := some .panel } : Reading).next "click_pin = \"^!gpio+07\"".toList = .ok r' ∧
        (Role.click.pin r'.settings.panel).map Pin.number = some 7 ∧
        ∀ other ≠ Role.click, other.pin r'.settings.panel = other.pin {} := by
  have haccepted : Audit.pinNumber Role.click.key "^!gpio+07" = .ok (some 7) := by decide
  obtain ⟨_, _, _, _, _, hline⟩ := audited_pin_is_read "^!gpio+07"
  exact ⟨haccepted, hline .click (some 7) { heading := some .panel } _ haccepted rfl
    (Statement.shows_line (.assignment Role.click.key.toList _))⟩

end Settings

end FrontPanel
