import FrontPanel.Proofs.Action
import FrontPanel.Tft.Display
import FrontPanel.Tft.Registers

/-!
# What using the display leaves alone

Sending, drawing and reading change the bus and the cursor of the display, and nothing else: what neither
of them decides holds after every such operation, whether it succeeds or fails.
-/

namespace FrontPanel.Tft

set_option autoImplicit false

open FrontPanel.Action

/-- A property that the bus does not decide. -/
def IgnoresBus (P : Tft → Prop) : Prop := ∀ t b, P t → P { t with bus := b }

/-- A property that neither the bus nor the cursor decides. -/
structure IsSteady (P : Tft → Prop) : Prop where
  bus : ∀ t b, P t → P { t with bus := b }
  cursor : ∀ t x y, P t → P (t.mapPaint (Paint.moveTo x y))

theorem initialized_steady (b : Bool) : IsSteady (fun t => t.initialized = b) :=
  ⟨fun _ _ h => h, fun _ _ _ h => h⟩

theorem mode_steady (mode : DrawMode) : IsSteady (fun t => t.paint.mode = mode) :=
  ⟨fun _ _ h => h, fun _ _ _ h => h⟩

variable {P : Tft → Prop}

section IgnoresBus

variable (hP : IgnoresBus P)
include hP

theorem IgnoresBus.setLine {t : Tft} (ht : P t) (line : Line) (high : Bool) :
    P (t.setLine line high) := by
  unfold Tft.setLine
  split
  · exact hP t _ ht
  · exact ht

theorem IgnoresBus.hardReset {t : Tft} (ht : P t) : P t.hardReset := by
  unfold Tft.hardReset
  split
  · exact hP.setLine (hP _ _ (hP.setLine ht .reset false)) .reset true
  · exact ht

theorem onBus_keeps {α : Type} (x : Action BusFault SerialBus α) : Keeps P (onBus x) := by
  intro t ht
  unfold onBus within failingAs
  cases x t.bus with
  | ok a b => exact hP t b ht
  | error e b => exact hP t b ht

theorem setLine_keeps (line : Line) (high : Bool) :
    Keeps P (modify (setLine line high) : Action TftError Tft PUnit) :=
  Keeps.modify fun _ ht => hP.setLine ht line high

theorem closing_keeps {α : Type} {x : Action TftError Tft α} (hx : Keeps P x) (line : Line)
    (high : Bool) : Keeps P (x.closing (setLine line high)) :=
  Ensures.closing (hx.mono (fun _ h => h) (fun _ _ ht => hP.setLine ht line high)
    fun _ _ ht => hP.setLine ht line high)

theorem transaction_keeps {α : Type} {x : Action TftError Tft α} (hx : Keeps P x) :
    Keeps P (transaction x) :=
  fun _ ht => closing_keeps hP hx .select true _ (hP.setLine ht .select false)

theorem send_keeps (c : UInt8) (arguments : List UInt8) : Keeps P (send c arguments) := by
  unfold send
  apply Keeps.bind (setLine_keeps hP _ _)
  intro _
  apply Keeps.bind (closing_keeps hP (onBus_keeps hP _) _ _)
  intro _
  exact Keeps.ite (onBus_keeps hP _) (Keeps.pure _)

theorem command_keeps (c : UInt8) (arguments : List UInt8) : Keeps P (command c arguments) :=
  transaction_keeps hP (send_keeps hP c arguments)

theorem query_keeps (c : UInt8) (count : Nat) : Keeps P (query c count) :=
  transaction_keeps hP (Keeps.bind (send_keeps hP c []) fun _ => onBus_keeps hP _)

theorem runTable_keeps (table : List UInt8) : Keeps P (runTable table) := by
  unfold runTable
  apply Ensures.forM
  intro s _
  unfold runStep
  apply Keeps.bind (command_keeps hP _ _)
  intro _
  cases s.milliseconds with
  | none => exact Keeps.pure _
  | some n => exact Keeps.modify fun _ ht => hP _ _ ht

theorem sendWindow_keeps (x y width height : Nat) : Keeps P (sendWindow x y width height) := by
  unfold sendWindow
  apply Keeps.get_bind
  intro t
  apply Keeps.bind (send_keeps hP _ _)
  intro _
  apply Keeps.bind (send_keeps hP _ _)
  intro _
  exact send_keeps hP _ _

theorem setWindow_keeps (x y width height : Nat) : Keeps P (setWindow x y width height) :=
  Keeps.ite (Keeps.pure _) (transaction_keeps hP (sendWindow_keeps hP x y width height))

theorem sendRepeated_keeps (bytes : List UInt8) (n : Nat) : Keeps P (sendRepeated bytes n) := by
  induction n with
  | zero => exact Keeps.pure ()
  | succ n ih => exact Keeps.bind (onBus_keeps hP _) fun _ => ih

theorem sendPixels_keeps (color : Color) (count : Nat) : Keeps P (sendPixels color count) := by
  unfold sendPixels
  apply Keeps.bind (sendRepeated_keeps hP _ _)
  intro _
  exact Keeps.ite (onBus_keeps hP _) (Keeps.pure _)

theorem fillRect_keeps (x y width height : Nat) (color : Color) :
    Keeps P (fillRect x y width height color) := by
  unfold fillRect
  apply Keeps.get_bind
  intro t
  apply Keeps.ite
  · exact Keeps.throw _
  apply Keeps.ite
  · exact Keeps.pure _
  apply transaction_keeps hP
  exact Keeps.bind (sendWindow_keeps hP _ _ _ _) fun _ => sendPixels_keeps hP _ _

theorem paintPlace_keeps (x y : Nat) (glyph : List Nat) (place : Nat × Nat) :
    Keeps P (paintPlace x y glyph place) := by
  unfold paintPlace
  apply Keeps.get_bind
  intro t
  apply Keeps.ite (Keeps.pure _)
  apply Keeps.ite (fillRect_keeps hP _ _ _ _ _)
  exact Keeps.ite (fillRect_keeps hP _ _ _ _ _) (Keeps.pure _)

theorem sendCell_keeps (x y : Nat) (c : Char) : Keeps P (sendCell x y c) := by
  unfold sendCell
  apply Keeps.get_bind
  intro t
  apply transaction_keeps hP
  exact Keeps.bind (sendWindow_keeps hP _ _ _ _) fun _ => onBus_keeps hP _

theorem drawCharacter_keeps (x y : Nat) (c : Char) : Keeps P (drawCharacter x y c) := by
  unfold drawCharacter
  apply Keeps.get_bind
  intro t
  apply Keeps.ite (Keeps.throw _)
  apply Keeps.ite
  · exact sendCell_keeps hP x y c
  · exact Ensures.forM fun place _ => paintPlace_keeps hP x y _ place

theorem readIdentification_keeps : Keeps P readIdentification := by
  unfold readIdentification
  apply Keeps.bind (query_keeps hP _ _)
  intro _
  apply Keeps.bind (Ensures.mapM fun c _ => query_keeps hP c 1)
  exact fun _ => Keeps.pure _

theorem readRegister_keeps (c : UInt8) : Keeps P (readRegister c) :=
  Keeps.bind (query_keeps hP c 1) fun _ => Keeps.pure _

theorem readStatus_keeps : Keeps P readStatus := by
  unfold readStatus
  apply Keeps.bind (query_keeps hP _ _)
  intro _
  apply Keeps.bind (readRegister_keeps hP _)
  intro _
  apply Keeps.bind (readRegister_keeps hP _)
  intro _
  apply Keeps.bind (readRegister_keeps hP _)
  intro _
  exact Keeps.pure _

end IgnoresBus

section Steady

variable (hP : IsSteady P)
include hP

theorem moveTo_keeps {f : Paint → Paint} (hf : ∀ p, ∃ x y, f p = p.moveTo x y) :
    Keeps P (modify (mapPaint f) : Action TftError Tft PUnit) := by
  apply Keeps.modify
  intro t ht
  obtain ⟨x, y, hxy⟩ := hf t.paint
  unfold mapPaint
  rw [hxy]
  exact hP.cursor t x y ht

theorem clear_keeps : Keeps P clear := by
  unfold clear
  apply Keeps.get_bind
  intro t
  apply Keeps.bind (fillRect_keeps hP.bus _ _ _ _ _)
  intro _
  exact moveTo_keeps hP fun p => ⟨0, 0, rfl⟩

theorem drawText_keeps (text : List Char) : Keeps P (drawText text) := by
  induction text with
  | nil => exact Keeps.pure _
  | cons c rest ih =>
    unfold drawText
    apply Keeps.ite
    · apply Keeps.bind (moveTo_keeps hP fun p => ⟨p.cursorX, _, rfl⟩)
      exact fun _ => ih
    apply Keeps.ite
    · apply Keeps.get_bind
      intro t
      apply Keeps.bind (drawCharacter_keeps hP.bus _ _ _)
      intro _
      apply Keeps.bind (moveTo_keeps hP fun p => ⟨_, p.cursorY, rfl⟩)
      exact fun _ => ih
    · exact ih

end Steady

end FrontPanel.Tft
