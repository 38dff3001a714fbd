import FrontPanel.Proofs.Command.History

/-!
# A command with a parameter is one line

The text of such a command is written piece by piece into a line of bounded length, and is then queued like
any other text, cut at its newlines and measured once more. Wherever the pieces end and whichever of them
no longer fits, the whole text arrives as one line or nothing does: the text of a number holds no newline,
and the second measure finds what the first one found.
-/

namespace FrontPanel

set_option autoImplicit false

namespace Number

/-- The characters that the text of a number may have besides digits. -/
def numberMarks : List Char := ['-', '.', 'i', 'n', 'f', 'N', 'a']

def IsNumberCharacter (c : Char) : Prop := c.isDigit = true ∨ c ∈ numberMarks

theorem IsNumberCharacter.plain {c : Char} (h : IsNumberCharacter c) : c ≠ '\n' ∧ c.toNat < 128 := by
  rcases h with hdigit | hmark
  · have hrange : 48 ≤ c.toNat ∧ c.toNat ≤ 57 := Char.isDigit_iff_toNat.mp hdigit
    refine ⟨?_, by omega⟩
    rintro rfl
    exact absurd hrange.1 (by decide)
  · have hmarks : (numberMarks.all fun c => c ≠ '\n' ∧ c.toNat < 128) = true := by decide
    exact of_decide_eq_true (List.all_eq_true.mp hmarks c hmark)

theorem isNumberCharacter_of_mem_toDigits {n : Nat} {c : Char} (h : c ∈ Nat.toDigits 10 n) :
    IsNumberCharacter c :=
  Or.inl (Nat.isDigit_of_mem_toDigits (by decide) (by decide) h)

theorem isNumberCharacter_of_mem_paddedDigits {width n : Nat} {c : Char}
    (h : c ∈ paddedDigits width n) : IsNumberCharacter c := by
  rcases List.mem_append.mp h with hzero | hdigit
  · obtain rfl := List.eq_of_mem_replicate hzero
    exact Or.inl (by decide)
  · exact isNumberCharacter_of_mem_toDigits hdigit

theorem isNumberCharacter_of_mem_decimalText {places scaled : Nat} {c : Char}
    (h : c ∈ decimalText places scaled) : IsNumberCharacter c := by
  unfold decimalText at h
  split at h
  · exact isNumberCharacter_of_mem_toDigits h
  · rcases List.mem_append.mp h with hwhole | hfraction
    · exact isNumberCharacter_of_mem_toDigits hwhole
    · rcases List.mem_cons.mp hfraction with rfl | hdigit
      · exact Or.inr (by decide)
      · exact isNumberCharacter_of_mem_paddedDigits hdigit

theorem isNumberCharacter_of_mem_word {word : String} {c : Char} (hword : word ∈ ["NaN", "inf", "-", ""])
    (h : c ∈ word.toList) : IsNumberCharacter c := by
  have hmarks : (["NaN", "inf", "-", ""].all fun word => word.toList.all (· ∈ numberMarks)) = true := by
    decide
  have hchars := List.all_eq_true.mp hmarks word hword
  exact Or.inr (of_decide_eq_true (List.all_eq_true.mp hchars c h))

theorem Binary.isNumberCharacter_of_mem_toPlaces {f : BinaryFormat} {places : Nat} {x : Binary f}
    {c : Char} (h : c ∈ (x.toPlaces places).toList) : IsNumberCharacter c := by
  have hsign : (if x.negative then "-" else "") ∈ ["NaN", "inf", "-", ""] := by
    cases x.negative <;> decide
  simp only [toPlaces] at h
  by_cases hnan : x.isNaN = true
  · rw [if_pos hnan] at h
    exact isNumberCharacter_of_mem_word (by decide) h
  · rw [if_neg hnan] at h
    by_cases hinfinite : x.isInfinite = true
    · rw [if_pos hinfinite, String.toList_append] at h
      rcases List.mem_append.mp h with h | h
      · exact isNumberCharacter_of_mem_word hsign h
      · exact isNumberCharacter_of_mem_word (by decide) h
    · rw [if_neg hinfinite, String.toList_append, String.toList_ofList] at h
      rcases List.mem_append.mp h with h | h
      · exact isNumberCharacter_of_mem_word hsign h
      · exact isNumberCharacter_of_mem_decimalText h

end Number

namespace Command

open Number (Binary Binary32)

/-- Writes a text piece by piece behind the start of a line, up to a piece that does not fit. -/
def writePieces (line : String) : List String → Except QueueError String
  | [] => .ok line
  | piece :: rest =>
    if isTooLong (line ++ piece) then .error .lineTooLong else writePieces (line ++ piece) rest

theorem isTooLong_append {line rest : String} (h : isTooLong line = true) :
    isTooLong (line ++ rest) = true := by
  have hlong : maxLength < line.utf8ByteSize := of_decide_eq_true h
  have hsize : (line ++ rest).utf8ByteSize = line.utf8ByteSize + rest.utf8ByteSize :=
    String.utf8ByteSize_append
  exact decide_eq_true (by omega)

/-- Where the pieces end makes no difference. -/
theorem writePieces_eq (pieces : List String) {line : String} (h : isTooLong line = false) :
    writePieces line pieces =
      if isTooLong (line ++ String.join pieces) then .error .lineTooLong
      else .ok (line ++ String.join pieces) := by
  induction pieces generalizing line with
  | nil =>
    rw [String.join_nil, String.append_empty, h]
    rfl
  | cons piece rest ih =>
    rw [writePieces, String.join_cons, ← String.append_assoc]
    cases hlong : isTooLong (line ++ piece) with
    -- what is too long already is so with all that would follow
    | true => rw [if_pos rfl, if_pos (isTooLong_append hlong)]
    | false => exact ih hlong

theorem writePieces_parameterText {code : String} {letter : Char} {value : Binary32}
    {pieces : List String} (h : String.join pieces = parameterText code letter value) :
    writePieces "" pieces = withParameter code letter value := by
  rw [writePieces_eq pieces (by decide), String.empty_append, h]
  rfl

theorem linesOf_of_not_mem {text : String} (h : '\n' ∉ text.toList) (hne : text ≠ "") :
    linesOf text = [text] := by
  have hchars : text.toList ≠ [] := fun hnil => hne (String.toList_eq_nil_iff.mp hnil)
  unfold linesOf
  rw [Text.lines_of_not_mem h hchars, List.map_singleton, String.ofList_toList]

theorem linesOf_parameterText {code : String} (hcode : '\n' ∉ code.toList) {letter : Char}
    (hletter : letter ≠ '\n') (value : Binary32) :
    linesOf (parameterText code letter value) = [parameterText code letter value] := by
  have hchars : (parameterText code letter value).toList =
      code.toList ++ ' ' :: letter :: (value.toPlaces parameterPlaces).toList := by
    simp [parameterText]
  have hvalue : '\n' ∉ (value.toPlaces parameterPlaces).toList :=
    fun hmem => (Binary.isNumberCharacter_of_mem_toPlaces hmem).plain.1 rfl
  apply linesOf_of_not_mem
  · rw [hchars]
    simp [hcode, hvalue, hletter.symm]
  · intro hnone
    rw [hnone] at hchars
    simp at hchars

end Command

open Command (withParameter linesOf isTooLong maxLength)

namespace CommandQueue

/-- A text of one line is too long, finds no room, or is the last line of the queue. -/
theorem enqueue_line {text : String} (h : linesOf text = [text]) (q : CommandQueue) :
    enqueue text q =
      if maxLength < text.utf8ByteSize then .error .lineTooLong q
      else if q.capacity ≤ q.lines.length then .error .full q
      else .ok 1 { q with lines := q.lines ++ [text] } := by
  by_cases hlong : maxLength < text.utf8ByteSize
  · rw [if_pos hlong]
    exact enqueue_tooLong ⟨text, by rw [h]; exact List.mem_singleton_self text, hlong⟩
  · have hshort : ∀ line ∈ linesOf text, line.utf8ByteSize ≤ maxLength := by
      rw [h]
      exact List.forall_mem_singleton.mpr (Nat.not_lt.mp hlong)
    have hroom : q.capacity - q.lines.length < 1 ↔ q.capacity ≤ q.lines.length := by omega
    rw [enqueue_short hshort, h, if_neg hlong]
    simp only [List.length_singleton, hroom]

/-- Whatever the code, the letter, the value and the queue: the text holds no newline of its own making, and
wherever it is cut into the pieces that are written one by one, it comes out whole or is found too long. So
the command is refused as too long if and only if its text is, or else for lack of room if and only if there
is none, or else becomes the last line of the queue; a refusal leaves the queue as it was. -/
theorem sendParameter_all_or_nothing (code : String) (letter : Char) (value : Number.Binary32)
    (hcode : '\n' ∉ code.toList) (hletter : letter ≠ '\n') (q : CommandQueue) :
    let number := value.toPlaces 6
    let text := code ++ " " ++ String.singleton letter ++ number
    (∀ c ∈ number.toList, c ≠ '\n' ∧ c.toNat < 128) ∧
    (∀ pieces : List String, String.join pieces = text →
      Command.writePieces "" pieces = withParameter code letter value) ∧
    CommandSink.sendParameter code letter value q =
      if 96 < text.utf8ByteSize then .error .lineTooLong q
      else if q.capacity ≤ q.lines.length then .error .full q
      else .ok 1 { q with lines := q.lines ++ [text] } := by
  intro number text
  have hone : linesOf text = [text] := Command.linesOf_parameterText hcode hletter value
  refine ⟨fun c hc => (Number.Binary.isNumberCharacter_of_mem_toPlaces hc).plain,
    fun pieces hpieces => Command.writePieces_parameterText hpieces, ?_⟩
  by_cases hlong : 96 < text.utf8ByteSize
  · have hwrite : withParameter code letter value = .error .lineTooLong :=
      if_pos (decide_eq_true hlong : isTooLong text = true)
    rw [if_pos hlong, CommandSink.sendParameter, hwrite]
    rfl
  · have hwrite : withParameter code letter value = .ok text :=
      if_neg fun h : isTooLong text = true => hlong (of_decide_eq_true h)
    rw [CommandSink.sendParameter, hwrite]
    exact enqueue_line hone q

/-- The largest number takes forty-six characters. Behind a code of forty-eight bytes it fills a line, and
behind one of forty-nine nothing is queued. -/
theorem sendParameter_of_largest :
    let value : Number.Binary32 := .ofBits 0x7F7FFFFF
    let longest := String.ofList (List.replicate 48 'G')
    let q : CommandQueue := { capacity := 1 }
    CommandSink.sendParameter longest 'E' value q =
        .ok 1 { q with lines := [longest ++ " E340282346638528859811704183484516925440.000000"] } ∧
      CommandSink.sendParameter ("G" ++ longest) 'E' value q = .error .lineTooLong q := by
  intro value longest q
  have hfits := (sendParameter_all_or_nothing longest 'E' value (by decide) (by decide) q).2.2
  have hlong := (sendParameter_all_or_nothing ("G" ++ longest) 'E' value (by decide) (by decide) q).2.2
  have hnumber : longest ++ " " ++ String.singleton 'E' ++ value.toPlaces 6 =
      longest ++ " E340282346638528859811704183484516925440.000000" := by decide +kernel
  refine ⟨?_, ?_⟩
  · rw [hfits, hnumber, if_neg (by decide), if_neg (by decide)]
    rfl
  · rw [hlong, if_pos (by decide +kernel)]

end CommandQueue

end FrontPanel
