import FrontPanel.Proofs.Settings.Statement
import FrontPanel.Settings.Audit

/-!
# Written values

The plain forms of the values of a document: `true` and `false`, decimal integers, decimal fractions, texts
in quotes, and dates and times of day. What a reader of the settings makes of such a form depends on the
value alone, but for the length of a label and the rounding of a fraction.
-/

namespace FrontPanel.Settings

set_option autoImplicit false

open Number (isDigit digitsValue splitSign decimal? Binary Binary32 BinaryFormat)
open Audit (isIntegerWithin isPositiveNumber isBoolean)

/-- The characters of a decimal fraction. -/
def fractionCharacters : List Char :=
  ['0', '1', '2', '3', '4', '5', '6', '7', '8', '9', '+', '-', '.', 'e', 'E']

/-- The characters of a date and a time of day. -/
def datetimeCharacters : List Char :=
  ['0', '1', '2', '3', '4', '5', '6', '7', '8', '9', '-', ':', '.', '+', 'T', 't', 'Z', 'z', ' ']

/-- The text looks like a date or a time of day: a number in front of a hyphen or a colon. -/
structure IsDatetime (text : List Char) : Prop where
  first : ∃ c ∈ text.head?, isDigit c = true
  last : ∀ c, text.getLast? = some c → c ≠ ' '
  characters : ∀ c ∈ text, c ∈ datetimeCharacters
  divided : '-' ∈ text ∨ ':' ∈ text

/-- The plain form of a value. A fraction may be written in any way that stands for it, but not as an
integer; nothing is escaped in a quoted text. -/
inductive Document.WrittenAs : Document → List Char → Prop
  | boolean (b : Bool) : WrittenAs (.boolean b) (toString b).toList
  | integer (n : Int) : WrittenAs (.integer n) (toString n).toList
  | float {x : Binary .double} {text : List Char} (value : Binary.read? text = some x)
      (characters : ∀ c ∈ text, c ∈ fractionCharacters)
      (fraction : ∃ c ∈ text, c = '.' ∨ c = 'e' ∨ c = 'E') : WrittenAs (.float x) text
  | string (s : String) (verbatim : ∀ c ∈ s.toList, c ≠ '"' ∧ c ≠ '\\' ∧ c ≠ '\n') :
      WrittenAs (.string s) (Text.quote s.toList)
  | datetime (s : String) (shape : IsDatetime s.toList) : WrittenAs (.datetime s) s.toList

theorem isDigit_of_mem_toDigits {n : Nat} {c : Char} (h : c ∈ Nat.toDigits 10 n) :
    isDigit c = true :=
  Nat.isDigit_of_mem_toDigits (by decide) (by decide) h

theorem digitsValue_toDigits (n : Nat) : digitsValue (Nat.toDigits 10 n) = n :=
  Nat.ofDigitChars_toDigits (by decide) (by decide)

theorem mem_fractionCharacters_of_isDigit {c : Char} (h : isDigit c = true) :
    c ∈ fractionCharacters := by
  have hrange : 48 ≤ c.toNat ∧ c.toNat ≤ 57 := by
    simp only [isDigit, Bool.and_eq_true, decide_eq_true_eq] at h
    exact h
  have hc : Char.ofNat c.toNat = c := Char.ofNat_toNat c
  rw [← hc]
  generalize c.toNat = n at hrange
  have hdigit : ∀ n ∈ List.range' 48 10, Char.ofNat n ∈ fractionCharacters := by decide
  exact hdigit n (List.mem_range'_1.mpr (by omega))

theorem toString_natCast_toList (n : Nat) : (toString (n : Int)).toList = Nat.toDigits 10 n :=
  Nat.toList_repr

theorem toString_negSucc_toList (n : Nat) :
    (toString (Int.negSucc n)).toList = '-' :: Nat.toDigits 10 (n + 1) := by
  change ("-" ++ (n + 1).repr).toList = _
  rw [String.toList_append, Nat.toList_repr]
  rfl

theorem mem_fractionCharacters_of_mem_toString {n : Int} {c : Char}
    (h : c ∈ (toString n).toList) : c ∈ fractionCharacters := by
  cases n with
  | ofNat m =>
    rw [Int.ofNat_eq_natCast, toString_natCast_toList] at h
    exact mem_fractionCharacters_of_isDigit (isDigit_of_mem_toDigits h)
  | negSucc m =>
    rw [toString_negSucc_toList] at h
    rcases List.mem_cons.mp h with rfl | h
    · decide
    · exact mem_fractionCharacters_of_isDigit (isDigit_of_mem_toDigits h)

theorem toString_toList_ne_nil (n : Int) : (toString n).toList ≠ [] := by
  cases n with
  | ofNat m =>
    rw [Int.ofNat_eq_natCast, toString_natCast_toList]
    exact Nat.toDigits_ne_nil
  | negSucc m =>
    rw [toString_negSucc_toList]
    exact List.cons_ne_nil _ _

theorem withoutPlus_of_head {text : List Char} (h : text.head? ≠ some '+') :
    Text.withoutPlus text = text := by
  unfold Text.withoutPlus
  split
  · exact absurd rfl h
  · rfl

theorem withoutPlus_digits {digits : List Char} (h : ∀ c ∈ digits, isDigit c = true) :
    Text.withoutPlus digits = digits := by
  apply withoutPlus_of_head
  intro hhead
  exact absurd (h '+' (List.mem_of_mem_head? hhead)) (by decide)

theorem natural?_digits (greatest : Nat) {digits : List Char} (hne : digits ≠ [])
    (hdigits : ∀ c ∈ digits, isDigit c = true) :
    Text.natural? greatest digits =
      if digitsValue digits ≤ greatest then some (digitsValue digits) else none := by
  have hall : digits.all isDigit = true := List.all_eq_true.mpr hdigits
  unfold Text.natural?
  simp only [withoutPlus_digits hdigits, hall, List.isEmpty_eq_false_iff.mpr hne, Bool.not_true,
    Bool.or_false, Bool.false_eq_true, if_false]

theorem natural?_toDigits (greatest n : Nat) :
    Text.natural? greatest (Nat.toDigits 10 n) = if n ≤ greatest then some n else none := by
  rw [natural?_digits greatest Nat.toDigits_ne_nil fun c hc => isDigit_of_mem_toDigits hc,
    digitsValue_toDigits]

theorem mem_withoutPlus {c : Char} {text : List Char} (hc : c ∈ text) (hplus : c ≠ '+') :
    c ∈ Text.withoutPlus text := by
  unfold Text.withoutPlus
  split
  · exact (List.mem_cons.mp hc).resolve_left hplus
  · exact hc

/-- No numeral has a character besides its digits and a plus sign. -/
theorem natural?_eq_none {c : Char} {text : List Char} (hc : c ∈ text) (hdigit : isDigit c = false)
    (hplus : c ≠ '+') (greatest : Nat) : Text.natural? greatest text = none := by
  have hall : (Text.withoutPlus text).all isDigit = false := by
    rw [List.all_eq_false]
    exact ⟨c, mem_withoutPlus hc hplus, by rw [hdigit]; exact Bool.false_ne_true⟩
  unfold Text.natural?
  simp only [hall, Bool.not_false, Bool.or_true, if_true]

theorem isIntegerWithin_iff {least greatest : Nat} {value : Document} :
    isIntegerWithin least greatest value = true ↔
      ∃ n : Nat, least ≤ n ∧ value = .integer n ∧ n ≤ greatest := by
  constructor
  · intro h
    cases value with
    | integer n =>
      simp only [isIntegerWithin, Bool.and_eq_true, decide_eq_true_eq] at h
      have hnonneg : 0 ≤ n := by omega
      obtain ⟨m, rfl⟩ := Int.eq_ofNat_of_zero_le hnonneg
      exact ⟨m, by omega, rfl, by omega⟩
    | _ => cases h
  · rintro ⟨n, hleast, rfl, hgreatest⟩
    simp only [isIntegerWithin, Bool.and_eq_true, decide_eq_true_eq]
    omega

theorem readNatural_eq_ok {greatest n : Nat} {text : List Char} :
    readNatural greatest text = .ok n ↔ Text.natural? greatest text = some n := by
  unfold readNatural
  cases Text.natural? greatest text with
  | none => simp
  | some m => simp

theorem readCount_eq_ok {greatest n : Nat} {text : List Char} :
    readCount greatest text = .ok n ↔ 1 ≤ n ∧ Text.natural? greatest text = some n := by
  unfold readCount
  cases Text.natural? greatest text with
  | none => simp
  | some m =>
    cases m with
    | zero =>
      simp only [Option.some.injEq, reduceCtorEq, false_iff, not_and]
      omega
    | succ m =>
      simp only [Except.ok.injEq, Option.some.injEq]
      omega

theorem readBoolean_eq_ok {text : List Char} {b : Bool} :
    readBoolean text = .ok b ↔ text = (toString b).toList := by
  have hlist (s : String) : String.ofList text = s ↔ text = s.toList := by
    rw [← String.ofList_toList (s := s), String.ofList_inj, String.toList_ofList]
  unfold readBoolean
  split
  · next h =>
    rw [(hlist _).mp h]
    cases b <;> simp [toString]
  · next h =>
    rw [(hlist _).mp h]
    cases b <;> simp [toString]
  · next htrue hfalse =>
    rw [hlist] at htrue hfalse
    cases b with
    | false => exact ⟨nofun, fun h => absurd h hfalse⟩
    | true => exact ⟨nofun, fun h => absurd h htrue⟩

namespace Document.WrittenAs

variable {value : Document} {text : List Char}

/-- A numeral stands for the integer that it writes, and nothing else that is written is a numeral. -/
theorem natural?_eq_some (h : value.WrittenAs text) {greatest n : Nat} :
    Text.natural? greatest text = some n ↔ value = .integer n ∧ n ≤ greatest := by
  have hnone {c : Char} {text : List Char} {value : Document} (hc : c ∈ text)
      (hdigit : isDigit c = false) (hplus : c ≠ '+') (hvalue : value ≠ .integer n) :
      Text.natural? greatest text = some n ↔ value = .integer n ∧ n ≤ greatest := by
    rw [natural?_eq_none hc hdigit hplus]
    exact ⟨nofun, fun h => absurd h.1 hvalue⟩
  cases h with
  | boolean b =>
    cases b with
    | false => exact hnone (c := 'f') (by decide) (by decide) (by decide) nofun
    | true => exact hnone (c := 't') (by decide) (by decide) (by decide) nofun
  | integer m =>
    cases m with
    | ofNat m =>
      rw [Int.ofNat_eq_natCast, toString_natCast_toList, natural?_toDigits]
      simp only [Option.ite_none_right_eq_some, Option.some.injEq, Document.integer.injEq,
        Int.natCast_inj]
      constructor
      · rintro ⟨hle, rfl⟩
        exact ⟨rfl, hle⟩
      · rintro ⟨rfl, hle⟩
        exact ⟨hle, rfl⟩
    | negSucc m =>
      have hminus : '-' ∈ (toString (Int.negSucc m)).toList := by
        rw [toString_negSucc_toList]
        exact List.mem_cons_self
      exact hnone hminus (by decide) (by decide) (by simp)
  | float _ _ fraction =>
    obtain ⟨c, hc, rfl | rfl | rfl⟩ := fraction
    · exact hnone hc (by decide) (by decide) nofun
    · exact hnone hc (by decide) (by decide) nofun
    · exact hnone hc (by decide) (by decide) nofun
  | string s _ => exact hnone (c := '"') List.mem_cons_self (by decide) (by decide) nofun
  | datetime s shape =>
    obtain hc | hc := shape.divided
    · exact hnone hc (by decide) (by decide) nofun
    · exact hnone hc (by decide) (by decide) nofun

theorem readNatural_iff (h : value.WrittenAs text) (greatest : Nat) :
    (∃ n, readNatural greatest text = .ok n) ↔ isIntegerWithin 0 greatest value = true := by
  rw [← Int.natCast_zero, isIntegerWithin_iff]
  simp only [readNatural_eq_ok, h.natural?_eq_some, Nat.zero_le, true_and]

theorem readCount_iff (h : value.WrittenAs text) (greatest : Nat) :
    (∃ n, readCount greatest text = .ok n) ↔ isIntegerWithin 1 greatest value = true := by
  rw [← Int.natCast_one, isIntegerWithin_iff]
  simp only [readCount_eq_ok, h.natural?_eq_some]

/-- A word of letters stands for a truth value only. -/
theorem isBoolean_of_letter (h : value.WrittenAs text) {c : Char} (hc : c ∈ text.head?)
    (hletter : c ∉ fractionCharacters) (hquote : c ≠ '"') : isBoolean value = true := by
  cases h with
  | boolean b => rfl
  | integer n =>
    exact absurd (mem_fractionCharacters_of_mem_toString (List.mem_of_mem_head? hc)) hletter
  | float _ characters _ => exact absurd (characters c (List.mem_of_mem_head? hc)) hletter
  | string s _ =>
    cases hc
    exact absurd rfl hquote
  | datetime s shape =>
    obtain ⟨d, hd, hdigit⟩ := shape.first
    cases hc.symm.trans hd
    exact absurd (mem_fractionCharacters_of_isDigit hdigit) hletter

theorem readBoolean_iff (h : value.WrittenAs text) :
    (∃ b, readBoolean text = .ok b) ↔ isBoolean value = true := by
  simp only [readBoolean_eq_ok]
  constructor
  · rintro ⟨b, rfl⟩
    cases b with
    | false => exact h.isBoolean_of_letter (c := 'f') rfl (by decide) (by decide)
    | true => exact h.isBoolean_of_letter (c := 't') rfl (by decide) (by decide)
  · intro hvalue
    cases h with
    | boolean b => exact ⟨b, rfl⟩
    | _ => cases hvalue

theorem readLabel_iff (text : List Char) :
    (∃ label, readLabel text = .ok label) ↔
      (String.ofList (Text.unquote text)).utf8ByteSize ≤ maxLabelLength := by
  unfold readLabel
  simp only
  split
  · exact ⟨fun _ => ‹_›, fun _ => ⟨_, rfl⟩⟩
  · exact ⟨nofun, fun h => absurd h ‹_›⟩

end Document.WrittenAs

theorem nearestCodeOfDecimal_le (f : BinaryFormat) (digits : Nat) (e : Int) :
    f.nearestCodeOfDecimal digits e ≤ f.infinityCode := by
  unfold BinaryFormat.nearestCodeOfDecimal
  simp only
  split
  · exact Nat.zero_le _
  split
  · exact Nat.le_refl _
  split
  · exact Nat.zero_le _
  split
  · exact f.nearestCode_le_infinityCode _ _
  · exact f.nearestCode_le_infinityCode _ _

theorem mem_of_mem_splitSign {c : Char} {text : List Char} (h : c ∈ (splitSign text).2) :
    c ∈ text := by
  unfold splitSign at h
  split at h
  · exact List.mem_cons_of_mem _ h
  · exact List.mem_cons_of_mem _ h
  · exact h

/-- A literal that is made of digits, signs, a point and an exponent is no word. -/
theorem read?_eq_decimal (f : BinaryFormat) {text : List Char}
    (h : ∀ c ∈ text, c ∈ fractionCharacters) :
    (Binary.read? text : Option (Binary f)) =
      (decimal? (splitSign text).2).map fun (digits, e) =>
        ⟨(splitSign text).1, f.nearestCodeOfDecimal digits e⟩ := by
  have hword (word : String) (hn : 'n' ∈ word.toList) :
      String.ofList ((splitSign text).2.map Char.toLower) ≠ word := by
    rintro rfl
    rw [String.toList_ofList] at hn
    obtain ⟨c, hc, hlower⟩ := List.mem_map.mp hn
    have hother : (fractionCharacters.all fun c => c.toLower != 'n') = true := rfl
    have hne := List.all_eq_true.mp hother c (h c (mem_of_mem_splitSign hc))
    exact bne_iff_ne.mp hne hlower
  unfold Binary.read?
  simp only [hword "inf" (by decide), hword "infinity" (by decide), hword "nan" (by decide), or_self,
    if_false]

theorem splitSign_toDigits (n : Nat) :
    splitSign (Nat.toDigits 10 n) = (false, Nat.toDigits 10 n) := by
  have hsign {c : Char} {rest : List Char} (hc : isDigit c = false) : Nat.toDigits 10 n ≠ c :: rest := by
    intro h
    rw [isDigit_of_mem_toDigits (h ▸ List.mem_cons_self)] at hc
    cases hc
  unfold splitSign
  split
  · exact absurd ‹_› (hsign (by decide))
  · exact absurd ‹_› (hsign (by decide))
  · rfl

theorem decimal?_toDigits (n : Nat) : decimal? (Nat.toDigits 10 n) = some (n, 0) := by
  have hdigits : ∀ c ∈ Nat.toDigits 10 n, isDigit c = true := fun c hc => isDigit_of_mem_toDigits hc
  have htake : (Nat.toDigits 10 n ++ []).takeWhile isDigit = Nat.toDigits 10 n ++ [] :=
    List.takeWhile_append_of_pos hdigits
  have hdrop : (Nat.toDigits 10 n ++ []).dropWhile isDigit = [] :=
    List.dropWhile_append_of_pos hdigits
  rw [List.append_nil] at htake hdrop
  unfold decimal?
  simp [htake, hdrop, Number.exponent?, digitsValue_toDigits, Nat.toDigits_ne_nil]

theorem isPositive_iff {f : BinaryFormat} (digits : Nat) (e : Int) :
    (⟨false, f.nearestCodeOfDecimal digits e⟩ : Binary f).isPositive = true ↔
      (⟨false, f.nearestCodeOfDecimal digits e⟩ : Binary f).isZero = false := by
  have hle := nearestCodeOfDecimal_le f digits e
  simp only [Binary.isPositive, Binary.isNaN, Nat.not_lt.mpr hle, decide_false, Bool.not_false,
    Bool.true_and, Bool.not_eq_true']

/-- Of a positive number that is written, the single precision number nearest to it is positive too, unless
it is zero. -/
theorem Document.WrittenAs.read?_single {value : Document} {text : List Char}
    (h : value.WrittenAs text) (hvalue : isPositiveNumber value = true) :
    ∃ d : Binary32, Binary.read? text = some d ∧ (d.isPositive = true ↔ d.isZero = false) := by
  cases h with
  | integer n =>
    have hpositive : 0 < n := of_decide_eq_true hvalue
    obtain ⟨m, rfl⟩ := Int.eq_ofNat_of_zero_le (Int.le_of_lt hpositive)
    rw [read?_eq_decimal _ fun c hc => mem_fractionCharacters_of_mem_toString hc,
      toString_natCast_toList, splitSign_toDigits, decimal?_toDigits]
    exact ⟨_, rfl, isPositive_iff m 0⟩
  | @float x _ hread characters _ =>
    rw [read?_eq_decimal _ characters] at hread ⊢
    obtain ⟨⟨digits, e⟩, hdecimal, hx⟩ := Option.map_eq_some_iff.mp hread
    have hsign : (splitSign text).1 = false := by
      simp only [isPositiveNumber, ← hx, Binary.isPositive, Bool.and_eq_true, Bool.not_eq_true'] at hvalue
      exact hvalue.1.2
    rw [hdecimal, hsign]
    exact ⟨_, rfl, isPositive_iff digits e⟩
  | _ => cases hvalue

theorem Document.WrittenAs.readLength_iff {value : Document} {text : List Char}
    (h : value.WrittenAs text) (hvalue : isPositiveNumber value = true) :
    (∃ d, readLength text = .ok d) ↔
      ∀ d : Binary32, Binary.read? text = some d → d.isZero = false := by
  obtain ⟨d, hd, hpositive⟩ := h.read?_single hvalue
  unfold readLength
  rw [hd]
  simp only [Option.some.injEq, forall_eq', ← hpositive]
  split
  · exact ⟨fun _ => ‹_›, fun _ => ⟨_, rfl⟩⟩
  · exact ⟨nofun, fun h => absurd h ‹_›⟩

theorem number_le_of_read {value : List Char} {pin : Pin} (h : Pin.read value = .ok (some pin)) :
    pin.number ≤ Pin.last := by
  unfold Pin.read at h
  simp only at h
  split at h
  · cases h
  · split at h
    · next hnumber =>
      cases h
      exact Pin.number?_le hnumber
    · cases h

/-- What the audit says of a text that stands for no pin. -/
def Audit.pinFault (key text : String) : Audit.Finding :=
  if ['g', 'p', 'i', 'o'].isPrefixOf (text.toList.dropWhile Pin.isMark) then .pinNotValid key text
  else .pinNotNamed key text

/-- The audit takes a text for the pin that the settings read where it stands in quotes; what it says of the
other texts is its own. -/
theorem Audit.pinNumber_eq (key text : String) :
    Audit.pinNumber key text =
      ((Pin.read (Text.quote text.toList)).map (Option.map Pin.number)).mapError
        fun _ => Audit.pinFault key text := by
  have hmark : (fun c : Char => decide (c = '!') || decide (c = '^')) = Pin.isMark := rfl
  unfold Audit.pinNumber Audit.pinFault Pin.read
  simp only [Text.unquote_quote, hmark]
  split
  · rfl
  · generalize text.toList.dropWhile Pin.isMark = rest
    split
    · next numeral =>
      have hnumber : Pin.number? ('g' :: 'p' :: 'i' :: 'o' :: numeral) =
          Text.natural? Pin.last numeral := rfl
      rw [hnumber]
      cases Text.natural? Pin.last numeral with
      | none => rfl
      | some n => rfl
    · next hnamed =>
      have hnumber : Pin.number? rest = none := by
        unfold Pin.number?
        split
        · exact absurd rfl (hnamed _)
        · rfl
      have hprefix : ['g', 'p', 'i', 'o'].isPrefixOf rest = false := by
        rw [Bool.eq_false_iff, ne_eq, List.isPrefixOf_iff_prefix]
        rintro ⟨numeral, rfl⟩
        exact hnamed numeral rfl
      rw [hnumber, hprefix]
      rfl

/-- A quoted text that the audit takes for a pin is read as that pin. -/
theorem read_quote_of_pinNumber {key s : String} {n : Option Nat}
    (h : Audit.pinNumber key s = .ok n) :
    ∃ pin, Pin.read (Text.quote s.toList) = .ok pin ∧ pin.map Pin.number = n := by
  rw [Audit.pinNumber_eq] at h
  cases hread : Pin.read (Text.quote s.toList) with
  | error e =>
    rw [hread] at h
    cases h
  | ok pin =>
    rw [hread] at h
    cases h
    exact ⟨pin, rfl, rfl⟩

theorem IsDatetime.isValueText {text : List Char} (h : IsDatetime text) : IsValueText text := by
  have hplain : ∀ c ∈ datetimeCharacters, (c = ' ' ∨ Text.isBlank c = false) ∧ c ≠ '"' ∧ c ≠ '#' := by
    have hall : (datetimeCharacters.all fun c =>
        (c == ' ' || !Text.isBlank c) && c != '"' && c != '#') = true := rfl
    simpa [and_assoc] using hall
  obtain ⟨d, hd, hdigit⟩ := h.first
  refine ⟨⟨fun c hc => ?_, fun c hc => ?_⟩,
    quotedAfter_of_forall (fun c hc => (hplain c (h.characters c hc)).2) false, ?_⟩
  · cases hc.symm.trans hd
    refine (hplain d (h.characters d (List.mem_of_mem_head? hd))).1.resolve_left ?_
    rintro rfl
    cases hdigit
  · exact (hplain c (h.characters c (List.mem_of_mem_getLast? hc))).1.resolve_left (h.last c hc)
  · rintro rfl
    cases hd

theorem isValueText_of_forall {text : List Char} (h : ∀ c ∈ text, c ∈ fractionCharacters)
    (hne : text ≠ []) : IsValueText text := by
  have hplain : ∀ c ∈ fractionCharacters, Text.isBlank c = false ∧ c ≠ '"' ∧ c ≠ '#' := by
    have hall : (fractionCharacters.all fun c => !Text.isBlank c && c != '"' && c != '#') = true := rfl
    simpa [and_assoc] using hall
  exact ⟨isTight_of_forall fun c hc => (hplain c (h c hc)).1,
    quotedAfter_of_forall (fun c hc => (hplain c (h c hc)).2) false, hne⟩

theorem isValueText_quote {text : List Char} (h : '"' ∉ text) : IsValueText (Text.quote text) := by
  have hends : IsTight ['"'] := isTight_singleton rfl
  exact ⟨hends.append hends (by decide) (by decide) text, quotedAfter_quote h, nofun⟩

theorem Document.WrittenAs.isValueText {value : Document} {text : List Char}
    (h : value.WrittenAs text) : IsValueText text := by
  cases h with
  | boolean b =>
    cases b with
    | false => exact ⟨⟨by rintro _ ⟨⟩; rfl, by rintro _ ⟨⟩; rfl⟩, rfl, by decide⟩
    | true => exact ⟨⟨by rintro _ ⟨⟩; rfl, by rintro _ ⟨⟩; rfl⟩, rfl, by decide⟩
  | integer n =>
    exact isValueText_of_forall (fun c hc => mem_fractionCharacters_of_mem_toString hc)
      (toString_toList_ne_nil n)
  | float _ characters fraction =>
    obtain ⟨c, hc, _⟩ := fraction
    exact isValueText_of_forall characters (List.ne_nil_of_mem hc)
  | string s verbatim =>
    exact isValueText_quote fun h => (verbatim _ h).1 rfl
  | datetime s shape => exact shape.isValueText

end FrontPanel.Settings
