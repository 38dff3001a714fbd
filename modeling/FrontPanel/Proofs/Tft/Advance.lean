import FrontPanel.Proofs.Tft.Cells
import FrontPanel.Proofs.Tft.Fill

/-!
# How far a text moves the cursor

A started display whose bus carries everything draws every text. The cursor moves by one cell for each
character, up to the last coordinate; the width of the text, whose characters are counted in sixteen bits,
says where it ends unless the count has wrapped.
-/

namespace FrontPanel

set_option autoImplicit false

namespace Tft

open FrontPanel.Action

structure Serving (t : Tft) : Prop where
  initialized : t.initialized = true
  faultless : t.bus.Faultless

theorem Serving.withCursor {t : Tft} (ht : t.Serving) (place : Nat × Nat) :
    (t.withCursor place).Serving :=
  ⟨ht.initialized, ht.faultless⟩

/-- What can fail only at a failing transfer answers without one. -/
theorem serves_of_transfers {α : Type} {x : Action TftError Tft α}
    (hkeeps : Keeps (fun t => t.initialized = true) x)
    (hx : ∀ t : Tft, t.initialized = true → ∃ count, Transfers t x count) :
    Answers Serving x fun _ => Serving := by
  intro t ht
  obtain ⟨_, hcount⟩ := hx t ht.initialized
  obtain ⟨_, t', hrun, hfaultless⟩ := hcount.answers_faultless ht.faultless
  have hinitialized := hkeeps.of_ok ht.initialized hrun
  rw [hrun]
  exact ⟨hinitialized, hfaultless⟩

theorem fillRect_serves (x y width height : Nat) (color : Color) :
    Answers Serving (fillRect x y width height color) fun _ => Serving :=
  serves_of_transfers (fillRect_keeps (initialized_steady true).bus x y width height color)
    fun _ ht => ⟨_, fillRect_transfers ht x y width height color⟩

theorem paintPlace_serves (x y : Nat) (glyph : List Nat) (place : Nat × Nat) :
    Answers Serving (paintPlace x y glyph place) fun _ => Serving := by
  have hnothing : Answers Serving (pure () : Action TftError Tft Unit) fun _ => Serving :=
    Ensures.pure fun _ h => h
  unfold paintPlace
  refine Ensures.get_bind fun t ht => Ensures.mono_pre ?_ fun s (hs : s = t) => hs ▸ ht
  refine Ensures.ite (fun _ => hnothing) fun _ => ?_
  refine Ensures.ite (fun _ => fillRect_serves _ _ _ _ _) fun _ => ?_
  exact Ensures.ite (fun _ => fillRect_serves _ _ _ _ _) fun _ => hnothing

theorem sendCell_transfers (t : Tft) (x y : Nat) (c : Char) :
    Transfers t (sendCell x y c) (windowTransfers + 1) := by
  unfold sendCell
  refine Transfers.get_bind (transaction_transfers fun t' => ?_)
  exact Transfers.bind (sendWindow_transfers t' x y Glyph.width Glyph.height) fun _ _ _ =>
    Transfers.write _

theorem sendCell_serves (x y : Nat) (c : Char) :
    Answers Serving (sendCell x y c) fun _ => Serving :=
  serves_of_transfers (sendCell_keeps (initialized_steady true).bus x y c)
    fun t _ => ⟨_, sendCell_transfers t x y c⟩

theorem drawCharacter_serves (x y : Nat) (c : Char) :
    Answers Serving (drawCharacter x y c) fun _ => Serving := by
  unfold drawCharacter
  refine Ensures.get_bind fun t ht => Ensures.mono_pre ?_ fun s (hs : s = t) => hs ▸ ht
  rw [if_neg (by simp [ht.initialized])]
  exact Ensures.ite (fun _ => sendCell_serves x y c) fun _ =>
    Ensures.forM fun place _ => paintPlace_serves x y _ place

theorem drawCell_serves (cell : Cell) : Answers Serving (drawCell cell) fun _ => Serving :=
  Ensures.bind (Ensures.modified fun _ ht => ht.withCursor cell.place) fun _ =>
    drawCharacter_serves _ _ _

/-- Every text is drawn, and the cursor ends behind it. -/
theorem drawText_serves {t : Tft} (ht : t.Serving) {x y : UInt16}
    (hplace : t.cursorPlace = (x.toNat, y.toNat)) (text : List Char) :
    ∃ u, drawText text t = .ok () u ∧ u.cursorPlace = cursorBehind x.toNat y.toNat text := by
  have hbegin : t.cursorPlace = cursorBehind x.toNat y.toNat [] :=
    hplace.trans (cursorBehind_nil x y).symm
  have hcells : Answers Serving
      ((cellsBehind x.toNat y.toNat [] text).forM drawCell >>= fun _ =>
        moveCursor (cursorBehind x.toNat y.toNat text)) fun _ => Serving :=
    Ensures.bind (Ensures.forM fun cell _ => drawCell_serves cell) fun _ =>
      Ensures.modified fun _ hs => hs.withCursor _
  obtain ⟨_, u, hrun, _⟩ := hcells.exists_ok ht
  have hdrawn : drawText text t = .ok () u := (drawText_eq_cells hbegin).trans hrun
  exact ⟨u, hdrawn, cursorPlace_of_drawText hbegin hdrawn⟩

def IsOneLine (text : String) : Prop := ∀ c ∈ text.toList, c ≠ '\n' ∧ c ≠ '\r'

theorem cursorBehind_of_oneLine {text : String} (htext : IsOneLine text) (x y : UInt16) :
    cursorBehind x.toNat y.toNat text.toList = (min 65535 (x.toNat + 6 * text.length), y.toNat) := by
  have hplaced : text.toList.countP isPlaced = text.length := by
    rw [← String.length_toList, List.countP_eq_length]
    intro c hc
    simp [isPlaced, (htext c hc).1, (htext c hc).2]
  have hcount : text.toList.count '\n' = 0 :=
    List.count_eq_zero.mpr fun hmem => (htext '\n' hmem).1 rfl
  have hy := y.toNat_lt
  simp only [cursorBehind, hplaced, hcount, Prod.mk.injEq, true_and]
  omega

theorem write_oneLine {d : Tft} (hd : d.Serving) (x y : UInt16) {text : String}
    (htext : IsOneLine text) :
    ∃ t, Display.write text (d.withCursor (x.toNat, y.toNat)) = .ok () t ∧
      t.cursorPlace = (min 65535 (x.toNat + 6 * text.length), y.toNat) := by
  obtain ⟨t, hrun, hplace⟩ :=
    drawText_serves (hd.withCursor (x.toNat, y.toNat)) (x := x) (y := y) rfl text.toList
  refine ⟨t, ?_, hplace.trans (cursorBehind_of_oneLine htext x y)⟩
  change drawing (drawText text.toList) _ = _
  unfold drawing failingAs
  rw [hrun]

theorem textWidth_eq (text : String) :
    Glyph.textWidth text = min 65535 (6 * (text.length % 65536)) := by
  unfold Glyph.textWidth Number.times Number.maxCoordinate Glyph.width
  rw [Nat.mul_comm]

/-- Writing a text in one line on a started display without faults moves the cursor to the right by six for
each character, or to the last coordinate. The width of the text foretells that for every text of up to
65535 characters. For a longer one it is the width of as many characters as sixteen bits have counted, and
right only where that is beyond the last coordinate as well. -/
theorem predicted_cursor_iff {d : Tft} (hd : d.initialized = true) (hbus : d.bus.Faultless)
    (x y : UInt16) {text : String} (htext : IsOneLine text) :
    let width := Glyph.textWidth text
    let counted := text.length % 65536
    width = min 65535 (6 * counted) ∧
      (width = min 65535 (6 * text.length) ↔ text.length ≤ 65535 ∨ 65535 ≤ 6 * counted) ∧
      ∃ t, Display.write text (d.withCursor (x.toNat, y.toNat)) = .ok () t ∧
        t.cursorPlace = (min 65535 (x.toNat + 6 * text.length), y.toNat) ∧
        (t.cursorPlace.1 = min 65535 (x.toNat + width) ↔
          text.length ≤ 65535 ∨ 65535 ≤ x.toNat + 6 * counted) := by
  intro width counted
  have hwidth : width = min 65535 (6 * counted) := textWidth_eq text
  obtain ⟨t, hrun, hplace⟩ := write_oneLine ⟨hd, hbus⟩ x y htext
  refine ⟨hwidth, ?_, t, hrun, hplace, ?_⟩
  · rw [hwidth]
    omega
  · rw [hplace, hwidth]
    dsimp only
    omega

/-- A started panel of two by one pixels. -/
def twoPixels : Tft :=
  { atRest {} true true none { width := 2, height := 1 } with initialized := true }

theorem twoPixels_serving : twoPixels.Serving := ⟨rfl, fun _ _ => rfl⟩

theorem word_cut_at_last_coordinate :
    ∃ t, Display.write "G28" (twoPixels.withCursor (65530, 0)) = .ok () t ∧
      t.cursorPlace = (65535, 0) ∧
      t.cursorPlace.1 = min 65535 (65530 + Glyph.textWidth "G28") := by
  have htext : IsOneLine "G28" := by simp [IsOneLine]
  obtain ⟨-, -, t, hrun, hplace, hforetold⟩ :=
    predicted_cursor_iff twoPixels_serving.initialized twoPixels_serving.faultless 65530 0 htext
  exact ⟨t, hrun, hplace, hforetold.mpr (.inl (by decide))⟩

/-- One character more than sixteen bits count: the text has no width, and the cursor runs to the end. -/
theorem wrapped_count_has_no_width :
    let text := String.ofList (List.replicate 65536 'A')
    IsOneLine text ∧ Glyph.textWidth text = 0 ∧
      ∃ t, Display.write text (twoPixels.withCursor (0, 0)) = .ok () t ∧ t.cursorPlace.1 = 65535 ∧
        t.cursorPlace.1 ≠ min 65535 (0 + Glyph.textWidth text) := by
  intro text
  have hlength : text.length = 65536 := by
    rw [String.length_ofList, List.length_replicate]
  have htext : IsOneLine text := by
    intro c hc
    rw [String.toList_ofList] at hc
    rw [List.eq_of_mem_replicate hc]
    decide
  have hwidth : Glyph.textWidth text = 0 := by
    rw [textWidth_eq, hlength, Nat.mod_self]
    rfl
  obtain ⟨t, hrun, hplace⟩ := write_oneLine twoPixels_serving 0 0 htext
  have hend : t.cursorPlace.1 = 65535 := by
    rw [hplace, hlength]
    exact Nat.min_eq_left (by decide)
  refine ⟨htext, hwidth, t, hrun, hend, ?_⟩
  rw [hend, hwidth]
  decide

end Tft

end FrontPanel
