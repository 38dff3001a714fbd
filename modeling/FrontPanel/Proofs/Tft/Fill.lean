import FrontPanel.Proofs.Tft.Blocks
import FrontPanel.Proofs.Tft.Start

/-!
# Fills in every orientation

Setting the orientation anew takes size and offsets from the panel each time, so that the last orientation
decides, and not the way there. A fill then sends one block at most, which is the part of its rectangle
that is on the screen.
-/

namespace FrontPanel

set_option autoImplicit false

namespace Tft

open FrontPanel.Action

/-- Started, and with the size and the offsets that a panel has after a rotation. -/
structure Turned (panel : TftConfig) (rotation : Nat) (t : Tft) : Prop where
  initialized : t.initialized = true
  config : ∃ n, t.config = { panel with rotation := n }
  offsets :
    let o := Orientation.ofRotation rotation panel.columnStart panel.rowStart
    (t.offsetX, t.offsetY) = (o.offsetX, o.offsetY)
  size :
    let o := Orientation.ofRotation rotation panel.columnStart panel.rowStart
    (t.width, t.height) =
      if o.swapsAxes then (panel.height, panel.width) else (panel.width, panel.height)

theorem turned_steady (panel : TftConfig) (rotation : Nat) : IsSteady (Turned panel rotation) :=
  ⟨fun _ _ h => ⟨h.initialized, h.config, h.offsets, h.size⟩,
    fun _ _ _ h => ⟨h.initialized, h.config, h.offsets, h.size⟩⟩

theorem config_steady (panel : TftConfig) : IsSteady fun t => t.config = panel :=
  ⟨fun _ _ h => h, fun _ _ _ h => h⟩

theorem setRotation_turned (panel : TftConfig) (rotation : Nat) :
    Ensures (fun t => t.initialized = true ∧ ∃ n, t.config = { panel with rotation := n })
      (setRotation rotation) (fun _ => Turned panel rotation) fun _ => Turned panel rotation := by
  unfold setRotation
  refine Ensures.get_bind fun t ⟨hon, n, hconfig⟩ => ?_
  refine Ensures.bind (Q := fun _ => Turned panel rotation) (Ensures.modified ?_) fun _ =>
    command_keeps (turned_steady panel rotation).bus _ _
  rintro _ rfl
  rw [hconfig]
  refine ⟨hon, ⟨rotation % 4, rfl⟩, rfl, ?_⟩
  dsimp only
  split <;> rfl

/-- One rotation after the other: the last one counts. -/
theorem setRotations_turned (panel : TftConfig) (rotations : List Nat) (first : Nat) :
    Ensures (Turned panel first) (rotations.forM setRotation)
      (fun _ => Turned panel (rotations.getLast?.getD first)) fun _ _ => True := by
  induction rotations generalizing first with
  | nil => exact Ensures.pure fun _ h => h
  | cons rotation rest ih =>
    rw [List.forM_eq_forM, List.forM_cons, List.getLast?_cons]
    refine Ensures.bind (Q := fun _ => Turned panel rotation) ?_ fun _ => ih rotation
    exact (setRotation_turned panel rotation).mono (fun _ h => ⟨h.initialized, h.config⟩)
      (fun _ _ h => h) fun _ _ _ => trivial

theorem start_turned {d t : Tft} (h : start d = .ok () t) :
    Turned d.config d.config.rotation t := by
  have hunstarted : d.unstarted.config = d.config := unstarted_steady (config_steady d.config) rfl
  have hfinish : Ensures (fun s => s.config = d.config) finishStart
      (fun _ => Turned d.config d.config.rotation) fun _ _ => True := by
    unfold finishStart
    refine Ensures.bind (Q := fun _ s => s.initialized = true ∧ s.config = d.config)
      (Ensures.modified fun s hs => ⟨rfl, hs⟩) fun _ => Ensures.get_bind fun s ⟨hon, hconfig⟩ => ?_
    rw [hconfig]
    refine Ensures.bind (Q := fun _ => Turned d.config d.config.rotation) ?_ fun _ => ?_
    · refine (setRotation_turned d.config d.config.rotation).mono ?_ (fun _ _ h => h)
        fun _ _ _ => trivial
      rintro _ rfl
      exact ⟨hon, d.config.rotation, hconfig⟩
    · exact (clear_keeps (turned_steady _ _)).mono_error fun _ _ _ => trivial
  have hstart : Ensures (fun s => s.config = d.config)
      (runTable startTable >>= fun _ => finishStart)
      (fun _ => Turned d.config d.config.rotation) fun _ _ => True :=
    Ensures.bind ((runTable_keeps (config_steady d.config).bus startTable).mono_error
      fun _ _ _ => trivial) fun _ => hfinish
  exact hstart.of_ok hunstarted ((start_eq d).symm.trans h)

theorem turned_of_start {d started t : Tft} {rotations : List Nat}
    (hstart : start d = .ok () started) (hturned : rotations.forM setRotation started = .ok () t) :
    Turned d.config (rotations.getLast?.getD d.config.rotation) t :=
  (setRotations_turned d.config rotations d.config.rotation).of_ok (start_turned hstart) hturned

theorem Transfers.answers_faultless {α : Type} {t : Tft} {x : Action TftError Tft α} {k : Nat}
    (h : Transfers t x k) (ht : t.bus.Faultless) : ∃ a t', x t = .ok a t' ∧ t'.bus.Faultless := by
  obtain ⟨a, t', hrun, hfaults⟩ := h.answers fun i _ => ht _ (Nat.le_add_right _ i)
  refine ⟨a, t', hrun, fun i hi => ?_⟩
  rw [hfaults] at hi ⊢
  exact ht i (Nat.le_of_add_right_le hi)

theorem setRotations_answer {t : Tft} (ht : t.bus.Faultless) (rotations : List Nat) :
    ∃ t', rotations.forM setRotation t = .ok () t' ∧ t'.bus.Faultless := by
  induction rotations generalizing t with
  | nil => exact ⟨t, rfl, ht⟩
  | cons rotation rest ih =>
    obtain ⟨_, t₁, hfirst, ht₁⟩ := (setRotation_transfers t rotation).answers_faultless ht
    obtain ⟨t', hrest, ht'⟩ := ih ht₁
    exact ⟨t', (forM_cons_of_ok hfirst).trans hrest, ht'⟩

/-- A display that was started and turned any number of times fills rectangles exactly. For one that does
not meet the screen nothing is sent. For every other one it is a single block: the part of the rectangle on
the screen, moved by the offsets, with one pixel in the color for each of its places. -/
theorem fill_after_rotations {d started t : Tft} {rotations : List Nat}
    (hstart : start d = .ok () started) (hturned : rotations.forM setRotation started = .ok () t)
    (hwidth : t.offsetX + t.width ≤ 65536) (hheight : t.offsetY + t.height ≤ 65536)
    (hbus : t.bus.Faultless) (x y width height : Nat) (color : Color) :
    Turned d.config (rotations.getLast?.getD d.config.rotation) t ∧
      ∃ t', fillRect x y width height color t = .ok () t' ∧ t' = { t with bus := t'.bus } ∧
        (¬ t.Meets x y width height → t' = t) ∧
        (t.Meets x y width height → ∃ b : Block,
          t'.bus.history = t.bus.history ++ b.traffic t.hasSelect ∧ b.IsExact ∧
            b.left = t.offsetX + x ∧ b.left + b.width = t.offsetX + min (x + width) t.width ∧
            b.top = t.offsetY + y ∧ b.top + b.height = t.offsetY + min (y + height) t.height ∧
            b.chunks.flatten = List.replicate (b.width * b.height) color) ∧
        ∀ memory, (t'.chip memory).memory =
          (t.inMemory (Layer.rect x y width height color)).on (t.chip memory).memory := by
  have hgeometry := turned_of_start hstart hturned
  have hd : t.Drawable := ⟨hgeometry.initialized, hwidth, hheight⟩
  have hpaints : Paints t (fun _ => True) (fillRect x y width height color)
      (Layer.rect x y width height color) := fillRect_paints hd fun _ => trivial
  obtain ⟨_, t', hrun, ht'⟩ := (hpaints Layer.blank).exists_ok (Painted.refl _ hbus)
  refine ⟨hgeometry, t', hrun, ht'.same, fun hmiss => ?_, fun hmeets => ?_, fun memory => ?_⟩
  · rw [fillRect_of_not_meets hgeometry.initialized hmiss] at hrun
    cases hrun
    rfl
  · have hsent := (fillRect_sends hd hmeets color []).of_ok (Sent.refl hbus) hrun
    have hin := meets_iff.mp hmeets
    refine ⟨t.fillBlock x y width height color, hsent.history, fillBlock_exact hd hmeets color,
      rfl, ?_, rfl, ?_, flatten_chunked _ _⟩
    · change t.offsetX + x + min width (t.width - x) = _
      omega
    · change t.offsetY + y + min height (t.height - y) = _
      omega
  · rw [ht'.memory, Layer.onto_blank]

/-- A panel of three by two pixels at the second column and the third row of its memory. -/
def smallPanel : Tft :=
  atRest {} true true none { width := 3, height := 2, columnStart := 1, rowStart := 2 }

/-- Turned upside down and then to the side, the panel is two pixels wide and three high. A rectangle that
leaves the screen, and the sixteen bits as well, is painted on the screen alone. -/
theorem fill_of_smallPanel :
    ∃ started t t', start smallPanel = .ok () started ∧
      [2, 1].forM setRotation started = .ok () t ∧
      (t.offsetX = 2 ∧ t.width = 2 ∧ t.offsetY = 1 ∧ t.height = 3) ∧ t.bus.Faultless ∧
      fillRect 1 1 65535 1 .white t = .ok () t' ∧ ∀ memory,
        (t'.chip memory).memory 3 2 = .white ∧
          (t'.chip memory).memory 4 2 = (t.chip memory).memory 4 2 := by
  obtain ⟨_, started, hstart, hstarted⟩ :=
    (start_transfers smallPanel).answers_faultless fun _ _ => rfl
  obtain ⟨t, hturned, hbus⟩ := setRotations_answer hstarted [2, 1]
  have hgeometry := turned_of_start hstart hturned
  obtain ⟨hx, hy⟩ : t.offsetX = 2 ∧ t.offsetY = 1 := Prod.mk.inj hgeometry.offsets
  obtain ⟨hwidth, hheight⟩ : t.width = 2 ∧ t.height = 3 := Prod.mk.inj hgeometry.size
  obtain ⟨-, t', hrun, -, -, -, hmemory⟩ :=
    fill_after_rotations hstart hturned (by omega) (by omega) hbus 1 1 65535 1 .white
  refine ⟨started, t, t', hstart, hturned, ⟨hx, hwidth, hy, hheight⟩, hbus, hrun, fun memory => ?_⟩
  rw [hmemory, inMemory, hx, hy, hwidth, hheight]
  exact ⟨rfl, rfl⟩

end Tft

end FrontPanel
