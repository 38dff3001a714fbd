import Mathlib.Order.Bounds.Defs
import FrontPanel.Proofs.Display.Observed
import FrontPanel.Proofs.Menu.Scroll

/-!
# The scroll bar fills its track

The thumb is placed by one quotient rounded down and sized by another rounded up, and still it stays on its
track, down to the last row of it on the last page. The three parts of the track that a scroll bar paints
therefore follow each other without a gap, whatever rows the window shows.
-/

namespace FrontPanel

set_option autoImplicit false

open FrontPanel.Number

section Thumb

variable {track capacity rows start n : Nat}

theorem le_scrollThumb_offset_iff (hrows : 0 < rows) :
    n ≤ (scrollThumb track capacity rows start).1 ↔ n * rows ≤ track * start := by
  rw [scrollThumb, if_neg hrows.ne']
  exact Nat.le_div_iff_mul_le hrows

theorem scrollThumb_length_le_iff (hrows : 0 < rows) :
    (scrollThumb track capacity rows start).2 ≤ n ↔ track * capacity ≤ n * rows := by
  rw [scrollThumb, if_neg hrows.ne']
  dsimp only
  by_cases hrest : 0 < track * capacity % rows
  · have hne : track * capacity ≠ n * rows := by
      intro heq
      rw [heq, Nat.mul_mod_left] at hrest
      exact Nat.lt_irrefl 0 hrest
    rw [if_pos hrest, Nat.add_one_le_iff, Nat.div_lt_iff_lt_mul hrows]
    omega
  · obtain ⟨q, hq⟩ : rows ∣ track * capacity := Nat.dvd_of_mod_eq_zero (by omega)
    rw [if_neg hrest, hq, Nat.mul_div_cancel_left q hrows, Nat.add_zero, Nat.mul_comm rows]
    exact (Nat.mul_le_mul_right_iff hrows).symm

theorem scrollThumb_length_isLeast (hrows : 0 < rows) :
    IsLeast {n | track * capacity ≤ n * rows} (scrollThumb track capacity rows start).2 :=
  ⟨(scrollThumb_length_le_iff hrows).mp (Nat.le_refl _),
    fun _ hn => (scrollThumb_length_le_iff hrows).mpr hn⟩

theorem scrollThumb_offset_mono (hrows : 0 < rows) {next : Nat} (h : start ≤ next) :
    (scrollThumb track capacity rows start).1 ≤ (scrollThumb track capacity rows next).1 := by
  apply (le_scrollThumb_offset_iff hrows).mpr
  calc (scrollThumb track capacity rows start).1 * rows
      ≤ track * start := (le_scrollThumb_offset_iff hrows).mp (Nat.le_refl _)
    _ ≤ track * next := Nat.mul_le_mul_left track h

theorem scrollThumb_le (track : Nat) (hrows : 0 < rows) (hend : start + capacity ≤ rows) :
    (scrollThumb track capacity rows start).1 + (scrollThumb track capacity rows start).2 ≤ track := by
  have hoffset : (scrollThumb track capacity rows start).1 * rows ≤ track * start :=
    (le_scrollThumb_offset_iff hrows).mp (Nat.le_refl _)
  have hbehind : (scrollThumb track capacity rows start).1 ≤ track :=
    scrollThumb_offset_le ((Nat.le_add_right _ _).trans hend)
  -- The length is the least that will do, so it is enough that the rest of the track would do.
  have hlength : (scrollThumb track capacity rows start).2 ≤
      track - (scrollThumb track capacity rows start).1 := by
    apply (scrollThumb_length_le_iff hrows).mpr
    have htrack : track * start + track * capacity ≤ track * rows := by
      rw [← Nat.mul_add]
      exact Nat.mul_le_mul_left track hend
    rw [Nat.sub_mul]
    omega
  omega

theorem scrollThumb_eq (hrows : 0 < rows) (hend : start + capacity = rows) :
    (scrollThumb track capacity rows start).1 + (scrollThumb track capacity rows start).2 = track := by
  have hlength : track * capacity ≤ (scrollThumb track capacity rows start).2 * rows :=
    (scrollThumb_length_le_iff hrows).mp (Nat.le_refl _)
  have hoffset : track - (scrollThumb track capacity rows start).2 ≤
      (scrollThumb track capacity rows start).1 := by
    apply (le_scrollThumb_offset_iff hrows).mpr
    have htrack : track * start + track * capacity = track * rows := by rw [← Nat.mul_add, hend]
    rw [Nat.sub_mul]
    omega
  have hle := scrollThumb_le track hrows hend.le
  omega

theorem scrollThumb16_le (track : Nat) (hrows : 0 < rows) (hend : start + capacity ≤ rows) :
    (scrollThumb16 track capacity rows start).1 + (scrollThumb16 track capacity rows start).2 ≤ track :=
  (Nat.add_le_add (Nat.mod_le _ _) (Nat.mod_le _ _)).trans (scrollThumb_le track hrows hend)

/-- On a track whose length is in range, nothing of the thumb is cut off. -/
theorem scrollThumb16_eq (hrows : 0 < rows) (hend : start + capacity ≤ rows) (htrack : track < 65536) :
    scrollThumb16 track capacity rows start = scrollThumb track capacity rows start := by
  have hfits := scrollThumb_le track hrows hend
  have hoffset := ((Nat.le_add_right _ _).trans hfits).trans_lt htrack
  have hlength := ((Nat.le_add_left _ _).trans hfits).trans_lt htrack
  exact Prod.ext (Nat.mod_eq_of_lt hoffset) (Nat.mod_eq_of_lt hlength)

/-- The same in checked arithmetic. Products and quotients are of thirty-two bits, and the result is cut
down to sixteen. -/
def scrollThumb? (track capacity rows start : Nat) : Option (Nat × Nat) :=
  if rows = 0 then some (0, track)
  else do
    let before ← wide? (track * start)
    let scaled ← wide? (track * capacity)
    let length ← wide? (scaled / rows + if 0 < scaled % rows then 1 else 0)
    return (before / rows % 65536, length % 65536)

theorem scrollThumb?_eq (hrows : 0 < rows) (hend : start + capacity ≤ rows) (htrack : track < 65536)
    (hrange : rows < 65536) :
    scrollThumb? track capacity rows start = some (scrollThumb track capacity rows start) := by
  have hfits := scrollThumb_le track hrows hend
  unfold scrollThumb? scrollThumb
  rw [scrollThumb, if_neg hrows.ne'] at hfits
  rw [if_neg hrows.ne', if_neg hrows.ne']
  have hoffset := ((Nat.le_add_right _ _).trans hfits).trans_lt htrack
  have hlength := ((Nat.le_add_left _ _).trans hfits).trans_lt htrack
  have hbefore := wide?_eq (mul_lt_wide htrack (show start < 65536 by omega))
  have hscaled := wide?_eq (mul_lt_wide htrack (show capacity < 65536 by omega))
  have hwide := wide?_eq (hlength.trans (by decide : 65536 < 4294967296))
  simp only [hbefore, hscaled, hwide, Option.bind_eq_bind, Option.bind_some, Option.pure_def,
    Nat.mod_eq_of_lt hoffset, Nat.mod_eq_of_lt hlength]

end Thumb

/-- Rows of the track that are painted in one mode. -/
structure Stretch where
  top : Nat
  length : Nat
  mode : DrawMode
  deriving DecidableEq

namespace Stretch

/-- The stretches follow each other from the first row down to the one in front of the second. -/
def Tile : Nat → List Stretch → Nat → Prop
  | a, [], b => a = b
  | a, p :: ps, b => p.top = a ∧ Tile (a + p.length) ps b

/-- An empty stretch is passed over. -/
def calls (x : Nat) (p : Stretch) : List DisplayCall :=
  if p.length = 0 then [] else [.box x p.top Layout.thumbWidth p.length p.mode]

theorem Tile.le {a b : Nat} {ps : List Stretch} (h : Tile a ps b) : a ≤ b := by
  induction ps generalizing a with
  | nil => exact Nat.le_of_eq h
  | cons p ps ih => exact (Nat.le_add_right _ _).trans (ih h.2)

theorem Tile.mem {a b : Nat} {ps : List Stretch} (h : Tile a ps b) {p : Stretch} (hp : p ∈ ps) :
    a ≤ p.top ∧ p.top + p.length ≤ b := by
  induction ps generalizing a with
  | nil => cases hp
  | cons q ps ih =>
    obtain ⟨htop, hrest⟩ := h
    rcases List.mem_cons.mp hp with rfl | hp
    · exact ⟨htop.ge, htop ▸ hrest.le⟩
    · exact ⟨(Nat.le_add_right _ _).trans (ih hrest hp).1, (ih hrest hp).2⟩

end Stretch

/-- The call fills pixels of a row. -/
def DisplayCall.fillsRow (y : Nat) : DisplayCall → Bool
  | .box _ top _ height _ => top ≤ y ∧ y < top + height
  | _ => false

namespace Stretch

theorem countP_calls (x y : Nat) (p : Stretch) :
    (p.calls x).countP (DisplayCall.fillsRow y) = if p.top ≤ y ∧ y < p.top + p.length then 1 else 0 := by
  unfold calls
  split
  · rw [List.countP_nil, if_neg (by omega)]
  · rw [List.countP_singleton, DisplayCall.fillsRow]
    simp only [decide_eq_true_eq]

theorem Tile.countP_calls {a b : Nat} {ps : List Stretch} (h : Tile a ps b) (x y : Nat) :
    (ps.flatMap (calls x)).countP (DisplayCall.fillsRow y) = if a ≤ y ∧ y < b then 1 else 0 := by
  induction ps generalizing a with
  | nil =>
    have hab : a = b := h
    rw [List.flatMap_nil, List.countP_nil, if_neg (by omega)]
  | cons p ps ih =>
    obtain ⟨htop, hrest⟩ := h
    have hle := hrest.le
    rw [List.flatMap_cons, List.countP_append, Stretch.countP_calls, ih hrest, htop]
    split <;> split <;> split <;> omega

theorem fill_notes {σ : Type} [Display σ] (x : Nat) (p : Stretch) :
    Notes (Renderer.fill x p.top Layout.thumbWidth p.length p.mode : Draw (Observed σ) Unit)
      ((p.calls x).map .call) := by
  have hwidth : Layout.thumbWidth ≠ 0 := by decide
  unfold Renderer.fill calls
  by_cases hempty : p.length = 0
  · rw [if_pos (Or.inr hempty), if_pos hempty]
    exact Notes.pure ()
  · rw [if_neg (by omega), if_neg hempty]
    exact Notes.noting _ _

end Stretch

namespace Layout

/-- The track above, at and below the thumb. -/
def stretches (l : Layout) (w : Window) : List Stretch :=
  let thumb := scrollThumb16 l.trackLength w.capacity w.rows w.start
  [⟨trackTop, thumb.1, .erase⟩, ⟨trackTop + thumb.1, thumb.2, .draw⟩,
    ⟨trackTop + thumb.1 + thumb.2, trackTop + l.trackLength - (trackTop + thumb.1 + thumb.2), .erase⟩]

/-- The stretches as a scroll bar computes them, in checked arithmetic and with the thumb cut off at the
end of the track. -/
def stretches? (l : Layout) (w : Window) : Option (List Stretch) := do
  let thumb ← scrollThumb? l.trackLength w.capacity w.rows w.start
  let top ← sum? trackTop thumb.1
  let past ← sum? top thumb.2
  let stop ← sum? trackTop l.trackLength
  let bottom := min past stop
  let above ← difference? top trackTop
  let length ← difference? bottom top
  let below ← difference? stop bottom
  return [⟨trackTop, above, .erase⟩, ⟨top, length, .draw⟩, ⟨bottom, below, .erase⟩]

end Layout

namespace Renderer

/-- The line beside the track, and the stretches of the track. -/
def scrollBarCalls (r : Renderer) (w : Window) : List DisplayCall :=
  .vertical r.layout.barX Layout.titleHeight r.layout.sideLength .draw ::
    (r.layout.stretches w).flatMap (Stretch.calls r.layout.thumbX)

end Renderer

section

variable {w : Window}

/-- The thumb needs no cutting off. -/
theorem Layout.thumb_stop_le (l : Layout) (hrows : 0 < w.rows) (hend : w.start + w.capacity ≤ w.rows) :
    let thumb := scrollThumb16 l.trackLength w.capacity w.rows w.start
    Layout.trackTop + thumb.1 + thumb.2 ≤ Layout.trackTop + l.trackLength := by
  dsimp only
  rw [Nat.add_assoc]
  exact Nat.add_le_add_left (scrollThumb16_le l.trackLength hrows hend) Layout.trackTop

theorem Layout.stretches_tile (l : Layout) (hrows : 0 < w.rows)
    (hend : w.start + w.capacity ≤ w.rows) :
    Stretch.Tile Layout.trackTop (l.stretches w) (Layout.trackTop + l.trackLength) := by
  have hfits := scrollThumb16_le l.trackLength hrows hend
  refine ⟨rfl, rfl, rfl, ?_⟩
  dsimp only [Stretch.Tile]
  omega

theorem Layout.track_stop_lt {l : Layout} (hheight : l.height < 65536) :
    Layout.trackTop + l.trackLength < 65536 := by
  simp only [Layout.trackTop, Layout.trackLength, Layout.titleHeight, Layout.lineHeight, Glyph.height]
  omega

theorem Layout.stretches?_eq {l : Layout} (hrows : 0 < w.rows)
    (hend : w.start + w.capacity ≤ w.rows) (hrange : w.rows < 65536) (hheight : l.height < 65536) :
    l.stretches? w = some (l.stretches w) := by
  have htrack := Layout.track_stop_lt hheight
  have hstop := l.thumb_stop_le hrows hend
  have hlength := (Nat.le_add_left _ _).trans_lt htrack
  have hthumb := scrollThumb?_eq hrows hend hlength hrange
  rw [← scrollThumb16_eq hrows hend hlength] at hthumb
  unfold Layout.stretches? Layout.stretches
  generalize scrollThumb16 l.trackLength w.capacity w.rows w.start = thumb at hstop hthumb
  have htop := sum?_eq (((Nat.le_add_right _ _).trans hstop).trans_lt htrack)
  have hbottom := sum?_eq (hstop.trans_lt htrack)
  simp only [hthumb, htop, hbottom, sum?_eq htrack, Nat.min_eq_left hstop, difference?_add,
    difference?_eq hstop, Option.bind_eq_bind, Option.bind_some, Option.pure_def]

end

theorem Window.Sound.end_le_rows {w : Window} (h : w.Sound) (hscrolls : w.scrolls = true) :
    0 < w.rows ∧ w.start + w.capacity ≤ w.rows := by
  have hmore : w.capacity < w.rows := of_decide_eq_true hscrolls
  have hshown := h.bounds.shown_le
  rw [Window.shown, Nat.min_eq_left hmore.le] at hshown
  exact ⟨Nat.zero_lt_of_lt hmore, hshown⟩

namespace Renderer

variable {σ : Type} [Display σ] {w : Window}

/-- A scroll bar paints the stretches of its track, the thumb uncut. -/
theorem drawScrollBar_eq (r : Renderer) (hrows : 0 < w.rows) (hend : w.start + w.capacity ≤ w.rows) :
    r.drawScrollBar w = (do
      Display.vertical r.layout.barX Layout.titleHeight r.layout.sideLength .draw
      (r.layout.stretches w).forM fun p =>
        fill r.layout.thumbX p.top Layout.thumbWidth p.length p.mode : Draw σ Unit) := by
  have hstop := r.layout.thumb_stop_le hrows hend
  unfold drawScrollBar Layout.stretches
  dsimp only at hstop ⊢
  simp only [Nat.min_eq_left hstop, Nat.add_sub_cancel_left, List.forM_eq_forM, List.forM_cons,
    List.forM_nil, bind_pure_unit]

theorem drawScrollBar_notes (r : Renderer) (hrows : 0 < w.rows)
    (hend : w.start + w.capacity ≤ w.rows) :
    Notes (r.drawScrollBar w : Draw (Observed σ) Unit) ((r.scrollBarCalls w).map .call) := by
  rw [drawScrollBar_eq r hrows hend, scrollBarCalls, List.map_cons, List.map_flatMap]
  refine (Notes.noting _ _).bind fun _ => ?_
  exact Notes.forM fun p _ => p.fill_notes _

/-- On any track the thumb stays on it and is the shortest that does not understate what is in sight; it
moves down with the rows and ends at the end of the track on the last page. So the scroll bar of a window
that scrolls, after any calls and whatever the capacity, fills each row of its track once and no other row:
the calls noted are those of the three stretches, no bound of its arithmetic is met, and the thumb is not
cut off at the end of the track. The track of a layout that has no height for one has no rows. -/
theorem scroll_bar_tiles_track :
    (∀ track capacity rows start : Nat, 0 < rows → start + capacity ≤ rows →
      let thumb := scrollThumb track capacity rows start
      thumb.1 + thumb.2 ≤ track ∧
        IsLeast {n | track * capacity ≤ n * rows} thumb.2 ∧
        (∀ next, start ≤ next → thumb.1 ≤ (scrollThumb track capacity rows next).1) ∧
        (start + capacity = rows → thumb.1 + thumb.2 = track) ∧
        (track < 65536 → scrollThumb16 track capacity rows start = thumb) ∧
        (track < 65536 → rows < 65536 → scrollThumb? track capacity rows start = some thumb)) ∧
    ∀ (r : Renderer) (rows capacity : UInt16) (calls : List WindowCall),
      let w := calls.foldl WindowCall.apply (Window.ofRows rows.toNat capacity.toNat)
      let thumb := scrollThumb r.layout.trackLength w.capacity w.rows w.start
      let stop := Layout.trackTop + r.layout.trackLength
      r.layout.height < 65536 → w.scrolls = true →
        scrollThumb16 r.layout.trackLength w.capacity w.rows w.start = thumb ∧
        min (Layout.trackTop + thumb.1 + thumb.2) stop = Layout.trackTop + thumb.1 + thumb.2 ∧
        r.layout.stretches? w = some (r.layout.stretches w) ∧
        (∀ (σ : Type) [Display σ],
          Notes (r.drawScrollBar w : Draw (Observed σ) Unit) ((r.scrollBarCalls w).map .call)) ∧
        ∀ y, (r.scrollBarCalls w).countP (DisplayCall.fillsRow y) =
          if Layout.trackTop ≤ y ∧ y < stop then 1 else 0 := by
  constructor
  · intro track capacity rows start hrows hend thumb
    exact ⟨scrollThumb_le track hrows hend, scrollThumb_length_isLeast hrows,
      fun _ hnext => scrollThumb_offset_mono hrows hnext, fun hlast => scrollThumb_eq hrows hlast,
      fun htrack => scrollThumb16_eq hrows hend htrack,
      fun htrack hrange => scrollThumb?_eq hrows hend htrack hrange⟩
  · intro r rows capacity calls w thumb stop hheight hscrolls
    have hw : w.Sound := (Window.ofRows_sound rows capacity).run calls
    obtain ⟨hrows, hend⟩ := hw.end_le_rows hscrolls
    have hthumb : scrollThumb16 r.layout.trackLength w.capacity w.rows w.start = thumb :=
      scrollThumb16_eq hrows hend ((Nat.le_add_left _ _).trans_lt (Layout.track_stop_lt hheight))
    have hstop := r.layout.thumb_stop_le hrows hend
    rw [hthumb] at hstop
    refine ⟨hthumb, Nat.min_eq_left hstop, Layout.stretches?_eq hrows hend hw.rows_lt hheight,
      fun σ _ => r.drawScrollBar_notes hrows hend, fun y => ?_⟩
    exact (r.layout.stretches_tile hrows hend).countP_calls _ y

/-- Ten rows on six lines with the last row highlighted: nothing is left of the track below the thumb. -/
theorem last_page_tiles_track :
    let r : Renderer := ⟨{}, true, 4⟩
    let w := [WindowCall.pick 9].foldl WindowCall.apply
      (Window.ofRows (10 : UInt16).toNat (6 : UInt16).toNat)
    0 < 10 ∧ 4 + 6 ≤ 10 ∧ (scrollThumb 52 6 10 4).1 + (scrollThumb 52 6 10 4).2 = 52 ∧
      r.layout.height < 65536 ∧ w.scrolls = true ∧
      r.scrollBarCalls w = [.vertical 122 9 54 .draw, .box 124 10 2 20 .erase,
        .box 124 30 2 32 .draw] ∧
      ∀ y, (r.scrollBarCalls w).countP (DisplayCall.fillsRow y) = if 10 ≤ y ∧ y < 62 then 1 else 0 := by
  have hheight : ((⟨{}, true, 4⟩ : Renderer)).layout.height < 65536 := by decide
  have hscrolls : ([WindowCall.pick 9].foldl WindowCall.apply
    (Window.ofRows (10 : UInt16).toNat (6 : UInt16).toNat)).scrolls = true := by decide
  have hthumb := scroll_bar_tiles_track.1 52 6 10 4 (by decide) (by decide)
  have hbar := scroll_bar_tiles_track.2 ⟨{}, true, 4⟩ 10 6 [.pick 9] hheight hscrolls
  exact ⟨by decide, by decide, hthumb.2.2.2.1 rfl, hheight, hscrolls, by decide, hbar.2.2.2.2⟩

end Renderer

end FrontPanel
