import FrontPanel.Proofs.Tft.Steady

/-!
# A text and its cells

A text is drawn character by character, each into the cell that the characters and newlines in front of it
lead to. The cursor is moved once a character is drawn; so it tells how far a text came that was cut short.
-/

namespace FrontPanel

set_option autoImplicit false

namespace Tft

open FrontPanel.Action

/-- A newline only moves the cursor, and a carriage return is left out. -/
def isPlaced (c : Char) : Bool := c != '\n' && c != '\r'

/-- The cursor behind a text that was begun at `x` and `y`. -/
def cursorBehind (x y : Nat) (text : List Char) : Nat × Nat :=
  (min 65535 (x + 6 * text.countP isPlaced), min 65535 (y + 8 * text.count '\n'))

structure Cell where
  character : Char
  place : Nat × Nat
  deriving DecidableEq

/-- The cells of a text that follows `before`, which was begun at `x` and `y`. -/
def cellsBehind (x y : Nat) (before : List Char) : List Char → List Cell
  | [] => []
  | c :: rest =>
    let later := cellsBehind x y (before ++ [c]) rest
    if isPlaced c then ⟨c, cursorBehind x y before⟩ :: later else later

def cursorPlace (t : Tft) : Nat × Nat := (t.paint.cursorX, t.paint.cursorY)

def withCursor (place : Nat × Nat) (t : Tft) : Tft := t.mapPaint (Paint.moveTo place.1 place.2)

def moveCursor (place : Nat × Nat) : Action TftError Tft Unit := modify (withCursor place)

def drawCell (cell : Cell) : Action TftError Tft Unit := do
  moveCursor cell.place
  drawCharacter cell.place.1 cell.place.2 cell.character

theorem cursorBehind_nil (x y : UInt16) :
    cursorBehind x.toNat y.toNat [] = (x.toNat, y.toNat) := by
  have hx := x.toNat_lt
  have hy := y.toNat_lt
  simp only [cursorBehind, List.countP_nil, List.count_nil, Prod.mk.injEq]
  omega

section Behind

variable (x y : Nat) (before : List Char)

theorem cursorBehind_newline :
    cursorBehind x y (before ++ ['\n']) =
      ((cursorBehind x y before).1, Number.plus (cursorBehind x y before).2 Glyph.height) := by
  have hplaced : before.countP isPlaced + List.countP isPlaced ['\n'] = before.countP isPlaced := rfl
  have hcount : before.count '\n' + List.count '\n' ['\n'] = before.count '\n' + 1 := rfl
  simp only [cursorBehind, List.countP_append, List.count_append, hplaced, hcount, Number.plus,
    Number.maxCoordinate, Glyph.height, Prod.mk.injEq, true_and]
  omega

theorem cursorBehind_return :
    cursorBehind x y (before ++ ['\r']) = cursorBehind x y before := by
  unfold cursorBehind
  rw [List.countP_append, List.count_append]
  rfl

theorem cursorBehind_placed {c : Char} (hc : isPlaced c = true) :
    cursorBehind x y (before ++ [c]) =
      (Number.plus (cursorBehind x y before).1 Glyph.width, (cursorBehind x y before).2) := by
  have hnewline : c ≠ '\n' := by
    rintro rfl
    cases hc
  have hplaced : List.countP isPlaced [c] = 1 := by simp [hc]
  have hcount : List.count '\n' [c] = 0 := by simp [hnewline]
  simp only [cursorBehind, List.countP_append, List.count_append, hplaced, hcount, Number.plus,
    Number.maxCoordinate, Glyph.width, Nat.add_zero, Prod.mk.injEq, and_true]
  omega

end Behind

theorem withCursor_cursorPlace (t : Tft) : t.withCursor t.cursorPlace = t := rfl

/-- Drawing a character does not move the cursor. -/
theorem cursorPlace_drawCharacter (x y : Nat) (c : Char) (place : Nat × Nat) :
    Keeps (fun t => t.cursorPlace = place) (drawCharacter x y c) :=
  drawCharacter_keeps (fun _ _ h => h) x y c

variable {t : Tft}

theorem drawText_newline (rest : List Char) :
    drawText ('\n' :: rest) t =
      drawText rest (t.mapPaint fun p => { p with cursorY := Number.plus p.cursorY Glyph.height }) :=
  bind_of_ok rfl

theorem drawText_return (rest : List Char) : drawText ('\r' :: rest) t = drawText rest t :=
  bind_of_ok rfl

theorem drawText_placed {c : Char} (hc : isPlaced c = true) (rest : List Char) :
    drawText (c :: rest) t =
      (drawCharacter t.cursorPlace.1 t.cursorPlace.2 c >>= fun _ => do
        modify (mapPaint fun p => { p with cursorX := Number.plus p.cursorX Glyph.width })
        drawText rest) t := by
  obtain ⟨hnewline, hreturn⟩ : c ≠ '\n' ∧ c ≠ '\r' := by
    simpa only [isPlaced, Bool.and_eq_true, bne_iff_ne] using hc
  rw [drawText, if_neg hnewline, if_pos hreturn]
  rfl

theorem newline_or_return_or_isPlaced (c : Char) : c = '\n' ∨ c = '\r' ∨ isPlaced c = true := by
  by_cases hnewline : c = '\n'
  · exact .inl hnewline
  · by_cases hreturn : c = '\r'
    · exact .inr (.inl hreturn)
    · exact .inr (.inr (by simp [isPlaced, hnewline, hreturn]))

theorem drawText_append (a b : List Char) :
    drawText (a ++ b) = drawText a >>= fun _ => drawText b := by
  induction a with
  | nil => rfl
  | cons c a ih =>
    funext t
    rw [List.cons_append]
    rcases newline_or_return_or_isPlaced c with rfl | rfl | hc
    · rw [drawText_newline, ih]
      exact (bind_of_eq (drawText_newline a)).symm
    · rw [drawText_return, ih]
      exact (bind_of_eq (drawText_return a)).symm
    · rw [drawText_placed hc, ih]
      refine Eq.trans ?_ (bind_of_eq (drawText_placed hc a)).symm
      simp only [bind_assoc]

/-- What becomes of the first character of a text, which belongs at `place`; the cursor is due at `next`
behind it. -/
inductive First (place next : Nat × Nat) (c : Char) (t : Tft) : Prop where
  | skipped (hc : isPlaced c = false)
      (hrun : ∀ rest, drawText (c :: rest) t = drawText rest (t.withCursor next))
  | drawn {u : Tft} (hc : isPlaced c = true) (hdraw : drawCharacter place.1 place.2 c t = .ok () u)
      (hrun : ∀ rest, drawText (c :: rest) t = drawText rest (u.withCursor next))
  | failed {e : TftError} {u : Tft} (hc : isPlaced c = true)
      (hdraw : drawCharacter place.1 place.2 c t = .error e u) (hu : u.cursorPlace = place)
      (hrun : ∀ rest, drawText (c :: rest) t = .error e u)

theorem drawText_first {x y : Nat} {before : List Char} {t : Tft}
    (ht : t.cursorPlace = cursorBehind x y before) (c : Char) :
    First (cursorBehind x y before) (cursorBehind x y (before ++ [c])) c t := by
  rcases newline_or_return_or_isPlaced c with rfl | rfl | hc
  · refine .skipped rfl fun rest => ?_
    rw [cursorBehind_newline, ← ht]
    exact drawText_newline rest
  · refine .skipped rfl fun rest => ?_
    rw [cursorBehind_return, ← ht, withCursor_cursorPlace]
    exact drawText_return rest
  · have hrun := drawText_placed (t := t) hc
    rw [ht] at hrun
    cases hdraw : drawCharacter (cursorBehind x y before).1 (cursorBehind x y before).2 c t with
    | ok _ u =>
      have hu : u.cursorPlace = cursorBehind x y before :=
        (cursorPlace_drawCharacter _ _ _ _).of_ok ht hdraw
      refine .drawn hc hdraw fun rest => ?_
      rw [hrun, bind_of_ok hdraw, cursorBehind_placed x y before hc, ← hu]
      exact bind_of_ok rfl
    | error e u =>
      exact .failed hc hdraw ((cursorPlace_drawCharacter _ _ _ _).of_error ht hdraw) fun rest =>
        (hrun rest).trans (bind_of_error hdraw)

section Text

variable {x y : Nat} {before text : List Char} {t : Tft}

theorem cellsBehind_skipped {c : Char} (hc : isPlaced c = false) (rest : List Char) :
    cellsBehind x y before (c :: rest) = cellsBehind x y (before ++ [c]) rest := by
  simp only [cellsBehind, hc, Bool.false_eq_true, if_false]

theorem cellsBehind_placed {c : Char} (hc : isPlaced c = true) (rest : List Char) :
    cellsBehind x y before (c :: rest) =
      ⟨c, cursorBehind x y before⟩ :: cellsBehind x y (before ++ [c]) rest := by
  simp only [cellsBehind, hc, if_true]

theorem drawCell_eq {cell : Cell} (ht : t.cursorPlace = cell.place) :
    drawCell cell t = drawCharacter cell.place.1 cell.place.2 cell.character t := by
  have hmove : moveCursor cell.place t = .ok ⟨⟩ t := by
    rw [← ht]
    rfl
  exact bind_of_ok hmove

/-- Where the cursor stands does not matter, as every cell and the end have places of their own. -/
theorem forM_drawCell_withCursor (cells : List Cell) (place finish : Nat × Nat) (t : Tft) :
    (cells.forM drawCell >>= fun _ => moveCursor finish) (t.withCursor place) =
      (cells.forM drawCell >>= fun _ => moveCursor finish) t := by
  cases cells with
  | nil => rfl
  | cons cell rest => exact bind_of_eq (forM_cons_of_eq rfl)

theorem drawText_eq_cells (ht : t.cursorPlace = cursorBehind x y before) :
    drawText text t = ((cellsBehind x y before text).forM drawCell >>= fun _ =>
      moveCursor (cursorBehind x y (before ++ text))) t := by
  induction text generalizing before t with
  | nil =>
    rw [List.append_nil, ← ht]
    rfl
  | cons c rest ih =>
    have hrest : ∀ u : Tft, drawText rest (u.withCursor (cursorBehind x y (before ++ [c]))) =
        ((cellsBehind x y (before ++ [c]) rest).forM drawCell >>= fun _ =>
          moveCursor (cursorBehind x y (before ++ c :: rest))) u := by
      intro u
      rw [ih rfl, forM_drawCell_withCursor, List.append_assoc, List.singleton_append]
    have hcell : drawCell ⟨c, cursorBehind x y before⟩ t =
        drawCharacter (cursorBehind x y before).1 (cursorBehind x y before).2 c t := drawCell_eq ht
    cases drawText_first ht c with
    | skipped hc hrun => rw [hrun, hrest, cellsBehind_skipped hc]
    | drawn hc hdraw hrun =>
      rw [hrun, hrest, cellsBehind_placed hc]
      exact (bind_of_eq (forM_cons_of_ok (hcell.trans hdraw))).symm
    | failed hc hdraw _ hrun =>
      rw [hrun, cellsBehind_placed hc]
      exact (bind_of_error (forM_cons_of_error (hcell.trans hdraw))).symm

theorem cursorPlace_of_drawText {u : Tft} (ht : t.cursorPlace = cursorBehind x y before)
    (h : drawText text t = .ok () u) : u.cursorPlace = cursorBehind x y (before ++ text) := by
  rw [drawText_eq_cells ht] at h
  cases hcells : (cellsBehind x y before text).forM drawCell t with
  | ok _ v =>
    rw [bind_of_ok hcells] at h
    cases h
    rfl
  | error e v =>
    rw [bind_of_error hcells] at h
    cases h

/-- The text `text` behind `before` is drawn up to one of its characters, which fails, and the cursor stays
in front of that. -/
def StopsWithin (x y : Nat) (before text : List Char) (t : Tft) (e : TftError) (u : Tft) : Prop :=
  ∃ drawn c after v, text = drawn ++ c :: after ∧ isPlaced c = true ∧ drawText drawn t = .ok () v ∧
    let place := cursorBehind x y (before ++ drawn)
    drawCharacter place.1 place.2 c v = .error e u ∧ u.cursorPlace = place

theorem stopsWithin_of_drawText {e : TftError} {u : Tft}
    (ht : t.cursorPlace = cursorBehind x y before) (h : drawText text t = .error e u) :
    StopsWithin x y before text t e u := by
  induction text generalizing before t with
  | nil => cases h
  | cons c rest ih =>
    have hpast : ∀ s : Tft, (∀ rest, drawText (c :: rest) t =
        drawText rest (s.withCursor (cursorBehind x y (before ++ [c])))) →
        StopsWithin x y before (c :: rest) t e u := by
      intro s hrun
      rw [hrun] at h
      obtain ⟨drawn, c', after, v, rfl, hc', hdrawn, hfailed⟩ := ih rfl h
      rw [List.append_assoc, List.singleton_append] at hfailed
      exact ⟨c :: drawn, c', after, v, rfl, hc', (hrun drawn).trans hdrawn, hfailed⟩
    cases drawText_first ht c with
    | skipped _ hrun => exact hpast t hrun
    | drawn _ _ hrun => exact hpast _ hrun
    | failed hc hdraw hu hrun =>
      rw [hrun] at h
      cases h
      rw [← List.append_nil before] at hdraw hu
      exact ⟨[], c, rest, t, rfl, hc, rfl, hdraw, hu⟩

end Text

/-- A text is drawn as its placed characters in order, each in the cell that so many placed characters to
the right and so many newlines down from the start come to, and the cursor ends behind the text. If a
character fails, that is the end: nothing more is sent, and the cursor stays on the cell of that character.
Two texts in one are drawn as one after the other. -/
theorem text_drawn_cell_by_cell (d : Tft) (x y : UInt16) (text : List Char) :
    let t := d.withCursor (x.toNat, y.toNat)
    let behind := cursorBehind x.toNat y.toNat
    drawText text t = ((cellsBehind x.toNat y.toNat [] text).forM drawCell >>= fun _ =>
        moveCursor (behind text)) t ∧
      (∀ u, drawText text t = .ok () u → u.cursorPlace = behind text) ∧
      (∀ e u, drawText text t = .error e u → ∃ before c after v, text = before ++ c :: after ∧
        isPlaced c = true ∧ drawText before t = .ok () v ∧
        drawCharacter (behind before).1 (behind before).2 c v = .error e u ∧
        u.cursorPlace = behind before) ∧
      ∀ more u, drawText text t = .ok () u → drawText (text ++ more) t = drawText more u := by
  intro t behind
  have ht : t.cursorPlace = behind [] := (cursorBehind_nil x y).symm
  refine ⟨drawText_eq_cells ht, fun u => cursorPlace_of_drawText ht, fun e u hfail => ?_,
    fun more u hrun => ?_⟩
  · obtain ⟨before, c, after, v, htext, hc, hdrawn, hfailed⟩ := stopsWithin_of_drawText ht hfail
    rw [List.nil_append] at hfailed
    exact ⟨before, c, after, v, htext, hc, hdrawn, hfailed⟩
  · rw [drawText_append]
    exact bind_of_ok hrun

/-- Two cells by two, over a bus that carries the six transfers of one character. -/
def fourCells : Tft :=
  let faults : Faults := { fails := fun i => decide (6 ≤ i) }
  { atRest { faults := faults } true true none { width := 12, height := 16 } with initialized := true }

theorem second_line_cut_short :
    let t := fourCells.withCursor (0, 0)
    ∃ v u, drawText ['a', '\n'] t = .ok () v ∧ v.cursorPlace = (6, 8) ∧
      drawText ['a', '\n', 'b'] t = .error .transfer u ∧ u.cursorPlace = (6, 8) := by
  intro t
  let v := (drawText ['a', '\n']).after t
  let u := (drawText ['a', '\n', 'b']).after t
  have hfirst : drawText ['a', '\n'] t = .ok () v := eq_ok_of_outcome rfl
  have hsecond : drawText ['a', '\n', 'b'] t = .error .transfer u := eq_error_of_outcome rfl
  obtain ⟨_, hend, _, hboth⟩ := text_drawn_cell_by_cell fourCells 0 0 ['a', '\n']
  have hv : v.cursorPlace = (6, 8) := hend v hfirst
  -- the second line is a text of its own, which begins where the first one ended
  have hrest : drawText ['b'] (v.withCursor (6, 8)) = .error .transfer u := by
    rw [← hv, withCursor_cursorPlace, ← hboth ['b'] v hfirst]
    exact hsecond
  obtain ⟨before, _, _, _, htext, _, _, _, hu⟩ :=
    (text_drawn_cell_by_cell v 6 8 ['b']).2.2.1 .transfer u hrest
  cases before with
  | nil => exact ⟨v, u, hfirst, hv, hsecond, hu⟩
  | cons _ _ => simp at htext

end Tft

end FrontPanel
