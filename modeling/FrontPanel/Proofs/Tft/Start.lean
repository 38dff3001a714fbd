import Mathlib.Control.Monad.Basic
import FrontPanel.Proofs.Tft.Framing
import FrontPanel.Proofs.Tft.Steady
import FrontPanel.Proofs.Tft.Transfers

/-!
# Starting over a faulty bus

A start runs its table, sets the orientation and clears the screen. It fails at the first transfer that
fails, whichever that is. The display refuses to draw afterwards if the table was cut short; but it counts
as started once the table is through, and a start that fails later leaves it open for drawing.
-/

namespace FrontPanel

set_option autoImplicit false

namespace Tft

open FrontPanel.Action

/-- The transfers of a start: the table, the orientation, and the screen. -/
def startTransfers (c : TftConfig) : Nat :=
  tableTransfers + (2 + clearTransfers (c.width * c.height))

def unstarted (t : Tft) : Tft := hardReset { t with initialized := false }

/-- What a start does behind its table. -/
def finishStart : Action TftError Tft Unit := do
  modify fun t => { t with initialized := true }
  setRotation (← get).config.rotation
  clear

theorem start_eq (t : Tft) : start t = (runTable startTable >>= fun _ => finishStart) t.unstarted :=
  rfl

/-- Set up, and as large as its configuration says in one orientation or another. -/
structure Sized (on : Bool) (c : TftConfig) (t : Tft) : Prop where
  initialized : t.initialized = on
  pixels : t.width * t.height = c.width * c.height

theorem sized_steady (on : Bool) (c : TftConfig) : IsSteady (Sized on c) :=
  ⟨fun _ _ h => ⟨h.initialized, h.pixels⟩, fun _ _ _ h => ⟨h.initialized, h.pixels⟩⟩

theorem setRotation_sized (t : Tft) (rotation : Nat) :
    Ensures (· = t) (setRotation rotation) (fun _ => Sized t.initialized t.config)
      fun _ => Sized t.initialized t.config := by
  unfold setRotation
  apply Ensures.get_bind
  intro s hs
  subst hs
  refine Ensures.bind (Q := fun _ => Sized s.initialized s.config) ?_ fun _ => ?_
  · apply Ensures.modified
    intro s' hs'
    subst hs'
    refine ⟨rfl, ?_⟩
    cases (Orientation.ofRotation rotation s'.config.columnStart s'.config.rowStart).swapsAxes with
    | true => exact Nat.mul_comm _ _
    | false => rfl
  · exact command_keeps (sized_steady _ _).bus _ _

theorem setRotation_transfers (t : Tft) (rotation : Nat) :
    Transfers t (setRotation rotation) 2 := by
  unfold setRotation
  apply Transfers.get_bind
  apply Transfers.modify_bind rfl
  exact command_transfers _ _ _

theorem finishStart_transfers (t : Tft) :
    Transfers t finishStart (2 + clearTransfers (t.config.width * t.config.height)) := by
  unfold finishStart
  apply Transfers.modify_bind rfl
  apply Transfers.get_bind
  apply Transfers.bind (setRotation_transfers _ _)
  intro _ t' hrun
  have hsized := (setRotation_sized _ _).of_ok rfl hrun
  have hpixels : t'.width * t'.height = t.config.width * t.config.height := hsized.pixels
  rw [← hpixels]
  exact clear_transfers hsized.initialized

theorem unstarted_steady {P : Tft → Prop} (hP : IsSteady P) {t : Tft}
    (ht : P { t with initialized := false }) : P t.unstarted :=
  IgnoresBus.hardReset hP.bus ht

theorem start_transfers (t : Tft) : Transfers t start (startTransfers t.config) := by
  have hfaults : t.unstarted.bus.faults = t.bus.faults := hardReset_faults _
  have hsteady : IsSteady fun s => s.config = t.config := ⟨fun _ _ h => h, fun _ _ _ h => h⟩
  have hconfig : t.unstarted.config = t.config := unstarted_steady hsteady rfl
  have hrun : Transfers t.unstarted (runTable startTable >>= fun _ => finishStart)
      (startTransfers t.config) := by
    apply Transfers.bind (runTable_transfers _ _)
    intro _ t' ht'
    have hkept := (runTable_keeps hsteady.bus startTable).of_ok hconfig ht'
    rw [← hkept]
    exact finishStart_transfers t'
  constructor
  · intro hclean
    rw [start_eq, ← hfaults]
    exact hrun.answers (hfaults ▸ hclean)
  · intro n hn hfirst
    rw [start_eq]
    exact hrun.fails n hn (hfaults ▸ hfirst)

theorem finishStart_initialized (t : Tft) : (finishStart.after t).initialized = true := by
  have hstart : Ensures (fun _ => True) finishStart (fun _ s => s.initialized = true)
      fun _ s => s.initialized = true := by
    unfold finishStart
    apply Ensures.bind (Q := fun _ s => s.initialized = true)
    · exact Ensures.modified fun _ _ => rfl
    intro _
    apply Ensures.get_bind
    intro s hs
    apply Ensures.bind (Q := fun _ s => s.initialized = true)
    · exact (setRotation_sized s _).mono (fun _ h => h) (fun _ _ h => h.initialized.trans hs)
        fun _ _ h => h.initialized.trans hs
    · exact fun _ => clear_keeps (initialized_steady true)
  exact hstart.after trivial

/-- Whether a start got through its table is what counts afterwards, whatever failed behind it. -/
theorem initialized_after_start (t : Tft) :
    (start.after t).initialized = true ↔ t.bus.faults.Clean tableTransfers := by
  have hfaults : t.unstarted.bus.faults = t.bus.faults := hardReset_faults _
  have htable := runTable_transfers t.unstarted startTable
  rw [after_of_eq (start_eq t), ← hfaults]
  constructor
  · intro hon
    rcases t.unstarted.bus.faults.clean_or_firstAt tableTransfers with hclean | ⟨n, hn, hfirst⟩
    · exact hclean
    · obtain ⟨t', hrun⟩ := htable.fails n hn hfirst
      have hunstarted : t.unstarted.initialized = false :=
        unstarted_steady (initialized_steady false) rfl
      have hoff := (runTable_keeps (initialized_steady false).bus startTable).of_error hunstarted hrun
      rw [after_of_error (bind_of_error hrun), hoff] at hon
      cases hon
  · intro hclean
    obtain ⟨a, t', hrun, _⟩ := htable.answers hclean
    rw [after_of_eq (bind_of_ok hrun)]
    exact finishStart_initialized t'

/-- The operations that paint. A text paints if it has a character besides line ends. -/
inductive Drawing where
  | clear
  | pixel (x y : Nat) (mode : DrawMode)
  | horizontal (x y length : Nat) (mode : DrawMode)
  | vertical (x y length : Nat) (mode : DrawMode)
  | box (x y width height : Nat) (mode : DrawMode)
  | character (x y : Nat) (c : Char)
  | write (text : String) (visible : ∃ c ∈ text.toList, c ≠ '\n' ∧ c ≠ '\r')

def Drawing.run : Drawing → Draw Tft Unit
  | .clear => Display.clear
  | .pixel x y mode => Display.pixel x y mode
  | .horizontal x y length mode => Display.horizontal x y length mode
  | .vertical x y length mode => Display.vertical x y length mode
  | .box x y width height mode => Display.box x y width height mode
  | .character x y c => Display.character x y c
  | .write text _ => Display.write text

/-- Every attempt to paint fails for want of a start, and does not touch the bus. -/
def Refuses (t : Tft) : Prop :=
  ∀ d : Drawing, d.run.outcome t = .error .notInitialized ∧ (d.run.after t).bus = t.bus

theorem fillRect_refused {t : Tft} (ht : t.initialized = false) (x y width height : Nat)
    (color : Color) : fillRect x y width height color t = .error .notInitialized t := by
  unfold fillRect
  refine (bind_of_ok rfl).trans ?_
  rw [if_pos ht]
  rfl

theorem drawCharacter_refused {t : Tft} (ht : t.initialized = false) (x y : Nat) (c : Char) :
    drawCharacter x y c t = .error .notInitialized t := by
  unfold drawCharacter
  refine (bind_of_ok rfl).trans ?_
  rw [if_pos ht]
  rfl

theorem drawText_refused {t : Tft} (ht : t.initialized = false) {text : List Char}
    (hvisible : ∃ c ∈ text, c ≠ '\n' ∧ c ≠ '\r') :
    ∃ t', drawText text t = .error .notInitialized t' ∧ t'.bus = t.bus := by
  induction text generalizing t with
  | nil =>
    obtain ⟨c, hc, _⟩ := hvisible
    cases hc
  | cons c rest ih =>
    by_cases hline : c = '\n' ∨ c = '\r'
    · -- a line end moves the cursor at most, and the text behind it is refused
      have hrest : ∃ c ∈ rest, c ≠ '\n' ∧ c ≠ '\r' := by
        obtain ⟨v, hv, hne⟩ := hvisible
        rcases List.mem_cons.mp hv with rfl | hv
        · exact absurd hline (not_or.mpr hne)
        · exact ⟨v, hv, hne⟩
      unfold drawText
      rcases hline with rfl | rfl
      · exact ih ht hrest
      · exact ih ht hrest
    · obtain ⟨hnewline, hreturn⟩ := not_or.mp hline
      refine ⟨t, ?_, rfl⟩
      unfold drawText
      rw [if_neg hnewline, if_pos hreturn]
      exact (bind_of_ok rfl).trans (bind_of_error (drawCharacter_refused ht _ _ c))

theorem drawing_refused {x : Action TftError Tft Unit} {t : Tft}
    (h : ∃ t', x t = .error .notInitialized t' ∧ t'.bus = t.bus) :
    (drawing x).outcome t = .error .notInitialized ∧ ((drawing x).after t).bus = t.bus := by
  obtain ⟨t', hrun, hbus⟩ := h
  have hrun' : drawing x t = .error .notInitialized t' := by
    unfold drawing failingAs
    rw [hrun]
    rfl
  exact ⟨outcome_of_error hrun', (congrArg Tft.bus (after_of_error hrun')).trans hbus⟩

theorem refuses_of_not_initialized {t : Tft} (ht : t.initialized = false) : t.Refuses := by
  have harea (x y width height : Nat) (mode : DrawMode) :
      (fillArea x y width height mode).outcome t = .error .notInitialized ∧
        ((fillArea x y width height mode).after t).bus = t.bus :=
    drawing_refused ⟨t, fillRect_refused ht _ _ _ _ _, rfl⟩
  intro d
  cases d with
  | clear =>
    have hfill := fillRect_refused ht 0 0 t.width t.height t.paint.background
    exact drawing_refused ⟨t, (bind_of_ok rfl).trans (bind_of_error hfill), rfl⟩
  | pixel x y mode => exact harea x y 1 1 mode
  | horizontal x y length mode => exact harea x y length 1 mode
  | vertical x y length mode => exact harea x y 1 length mode
  | box x y width height mode => exact harea x y width height mode
  | character x y c => exact drawing_refused ⟨t, drawCharacter_refused ht x y c, rfl⟩
  | write text visible => exact drawing_refused (drawText_refused ht visible)

theorem initialized_of_refuses {t : Tft} (h : t.Refuses) : t.initialized = false := by
  apply Decidable.byContradiction
  intro hon
  have hclear := clear_transfers (Bool.of_not_eq_false hon)
  have hrefused : (drawing clear).outcome t = .error .notInitialized := (h .clear).1
  -- a clear that finds the display started fails by a transfer, if it fails
  rcases t.bus.faults.clean_or_firstAt (clearTransfers (t.width * t.height)) with
    hclean | ⟨n, hn, hfirst⟩
  · obtain ⟨a, t', hrun, _⟩ := hclear.answers hclean
    simp [drawing, outcome, failingAs, hrun] at hrefused
  · obtain ⟨t', hrun⟩ := hclear.fails n hn hfirst
    simp [drawing, outcome, failingAs, hrun, TftError.toDisplayError] at hrefused

theorem operation_initialized {o : Operation} (ho : o ≠ .start) {t : Tft} {on : Bool}
    (ht : t.initialized = on) : (o.after t).initialized = on := by
  have hsteady := initialized_steady on
  cases o with
  | start => exact absurd rfl ho
  | hardReset => exact IgnoresBus.hardReset hsteady.bus ht
  | runTable table => exact (runTable_keeps hsteady.bus table).after ht
  | command c arguments => exact (command_keeps hsteady.bus c arguments).after ht
  | setRotation rotation => exact ((setRotation_sized t rotation).after rfl).initialized.trans ht
  | setWindow x y width height => exact (setWindow_keeps hsteady.bus x y width height).after ht
  | fillRect x y width height color => exact (fillRect_keeps hsteady.bus x y width height color).after ht
  | drawCharacter x y c => exact (drawCharacter_keeps hsteady.bus x y c).after ht
  | drawText text => exact (drawText_keeps hsteady text).after ht
  | clear => exact (clear_keeps hsteady).after ht
  | readIdentification => exact (readIdentification_keeps hsteady.bus).after ht
  | readStatus => exact (readStatus_keeps hsteady.bus).after ht
  | paint change => exact ht

theorem operations_initialized {os : List Operation} (hos : .start ∉ os) {t : Tft} {on : Bool}
    (ht : t.initialized = on) : (os.foldl Operation.after t).initialized = on := by
  induction os generalizing t with
  | nil => exact ht
  | cons o rest ih =>
    have ho : o ≠ .start := fun h => hos (h ▸ List.mem_cons_self)
    exact ih (fun h => hos (List.mem_cons_of_mem o h)) (operation_initialized ho ht)

/-- A start whose first fault is its transfer number `n` fails. From then on, until the next start, the
display refuses to draw exactly if that transfer belonged to the table. The display may come from any
history, so that this also tells what the latest of several failed starts has left. -/
theorem failed_start_refuses_iff (t : Tft) {n : Nat} (hn : n < startTransfers t.config)
    (hfault : t.bus.faults.FirstAt n) {since : List Operation} (hsince : .start ∉ since) :
    let failed := (Display.start : Draw Tft Unit).after t
    (Display.start : Draw Tft Unit).outcome t = .error .bus ∧
      ((since.foldl Operation.after failed).Refuses ↔ n < tableTransfers) := by
  intro failed
  obtain ⟨t', hrun⟩ := (start_transfers t).fails n hn hfault
  have hstart : (Display.start : Draw Tft Unit) t = .error .bus t' := by
    change failingAs TftError.toDisplayError start t = _
    unfold failingAs
    rw [hrun]
    rfl
  have hfailed : failed = start.after t := after_failingAs _ _ _
  have hiff := initialized_after_start t
  rw [← hfailed] at hiff
  refine ⟨outcome_of_error hstart, ?_, ?_⟩
  · intro hrefuses
    apply Decidable.byContradiction
    intro hlate
    have hclean : t.bus.faults.Clean tableTransfers := hfault.clean.mono (Nat.le_of_not_lt hlate)
    have hon := operations_initialized hsince (hiff.mpr hclean)
    rw [initialized_of_refuses hrefuses] at hon
    cases hon
  · intro hearly
    have hoff : failed.initialized = false := by
      apply Bool.eq_false_iff.mpr
      intro hon
      have hnone := hiff.mp hon n hearly
      rw [hfault.fails] at hnone
      cases hnone
    exact refuses_of_not_initialized (operations_initialized hsince hoff)

/-- A display at rest of two pixels, whose transfer number `n` is the only one to fail. -/
def faultyAt (n : Nat) : Tft :=
  atRest { faults := { fails := fun i => i == n } } true true none { width := 2, height := 1 }

def cutShort (n : Nat) : Tft := (Display.start : Draw Tft Unit).after (faultyAt n)

/-- The last command of the table fails; then the orientation is set anew, and a text is drawn. -/
theorem failed_table_refuses :
    (Display.start : Draw Tft Unit).outcome (faultyAt 12) = .error .bus ∧
      (([.setRotation 1, .drawText ['a']].foldl Operation.after (cutShort 12)).Refuses ↔
        12 < tableTransfers) := by
  have hfault : (faultyAt 12).bus.faults.FirstAt 12 := by
    refine ⟨fun i hi => ?_, rfl⟩
    have hne : 0 + i ≠ 12 := by omega
    exact beq_eq_false_iff_ne.mpr hne
  exact failed_start_refuses_iff (faultyAt 12) (by decide) hfault (by simp)

/-- The command that sets the orientation fails. The start fails with it, and yet the screen is cleared
when that is asked for. -/
theorem failed_orientation_draws :
    (Display.start : Draw Tft Unit).outcome (faultyAt 13) = .error .bus ∧
      (Display.clear : Draw Tft Unit).outcome (cutShort 13) = .ok () ∧
      ((Display.clear : Draw Tft Unit).after (cutShort 13)).bus.log ≠ (cutShort 13).bus.log := by
  have hstart : (Display.start : Draw Tft Unit).outcome (faultyAt 13) = .error .bus := by
    decide +kernel
  have hclear : (Display.clear : Draw Tft Unit).outcome (cutShort 13) = .ok () := by
    decide +kernel
  have htraffic : ((Display.clear : Draw Tft Unit).after (cutShort 13)).bus.log ≠
      (cutShort 13).bus.log := by decide +kernel
  exact ⟨hstart, hclear, htraffic⟩

end Tft

end FrontPanel
