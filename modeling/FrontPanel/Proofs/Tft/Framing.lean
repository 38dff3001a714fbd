import FrontPanel.Proofs.Action
import FrontPanel.Tft.Display
import FrontPanel.Tft.Registers

/-!
# Framing on the serial bus

Every transfer is made inside a transaction, command bytes with the data line low and all else with the
data line high, whichever transfers fail. After every operation the lines are high again.
-/

namespace FrontPanel

set_option autoImplicit false

/-- Chip select, the data line, and whether a command byte was sent since chip select last changed. -/
structure LineState where
  select : Bool
  data : Bool
  commanded : Bool
  deriving DecidableEq

namespace LineState

def atRest : LineState := ⟨true, true, false⟩

def hear (s : LineState) : SerialEvent → LineState
  | .level .select high => { s with select := high, commanded := false }
  | .level .data high => { s with data := high }
  | .write _ => { s with commanded := s.commanded || !s.data }
  | _ => s

def after : List SerialEvent → LineState
  | [] => atRest
  | e :: past => (after past).hear e

end LineState

/-- An event that finds the lines as it should: a transfer needs chip select low, if it is wired. A write
with the data line low is one command byte; with the data line high there was a command byte before. -/
def SerialEvent.FramedIn (wired : Bool) (s : LineState) : SerialEvent → Prop
  | .write bytes | .writeFailed bytes =>
    (wired = true → s.select = false) ∧ if s.data then s.commanded = true else bytes.length = 1
  | .read _ | .readFailed _ =>
    (wired = true → s.select = false) ∧ s.data = true ∧ s.commanded = true
  | _ => True

def Framed (wired : Bool) : List SerialEvent → Prop
  | [] => True
  | e :: past => e.FramedIn wired (LineState.after past) ∧ Framed wired past

namespace Tft

open FrontPanel.Action

/-- The events since `base` are framed, and have left the lines in a state with `P`. -/
def Since (base : List SerialEvent) (wired : Bool) (P : LineState → Prop) (t : Tft) : Prop :=
  t.hasSelect = wired ∧
    ∃ events, t.bus.log = events ++ base ∧ Framed wired events ∧ P (LineState.after events)

def Idle (s : LineState) : Prop := s.select = true ∧ s.data = true

def Selected (wired : Bool) (s : LineState) : Prop := s.select = !wired ∧ s.data = true

def Commanding (wired : Bool) (s : LineState) : Prop := s.select = !wired ∧ s.data = false

def Commanded (wired : Bool) (s : LineState) : Prop := Selected wired s ∧ s.commanded = true

/-- An action inside a transaction that has sent a command once it answers. -/
def Commands {α : Type} (base : List SerialEvent) (wired : Bool) (x : Action TftError Tft α) : Prop :=
  Ensures (Since base wired (Selected wired)) x (fun _ => Since base wired (Commanded wired))
    fun _ => Since base wired (Selected wired)

section Framing

variable {base : List SerialEvent} {wired : Bool} {P Q : LineState → Prop}

theorem Since.mono {t : Tft} (h : Since base wired P t) (hPQ : ∀ s, P s → Q s) :
    Since base wired Q t := by
  obtain ⟨hwired, events, hlog, hframed, hp⟩ := h
  exact ⟨hwired, events, hlog, hframed, hPQ _ hp⟩

theorem Since.congr {t t' : Tft} (h : Since base wired P t) (hbus : t'.bus = t.bus)
    (hselect : t'.hasSelect = t.hasSelect) : Since base wired P t' := by
  obtain ⟨hwired, events, hlog, hframed, hp⟩ := h
  exact ⟨hselect.trans hwired, events, hbus ▸ hlog, hframed, hp⟩

theorem Since.logged {t t' : Tft} (h : Since base wired P t) {e : SerialEvent}
    (hlog : t'.bus.log = e :: t.bus.log) (hselect : t'.hasSelect = t.hasSelect)
    (he : ∀ s, P s → e.FramedIn wired s ∧ Q (s.hear e)) : Since base wired Q t' := by
  obtain ⟨hwired, events, hevents, hframed, hp⟩ := h
  obtain ⟨hin, hq⟩ := he _ hp
  refine ⟨hselect.trans hwired, e :: events, ?_, ⟨hin, hframed⟩, hq⟩
  rw [hlog, hevents]
  rfl

theorem selected_false {s : LineState} (h : s.select = !wired) : wired = true → s.select = false := by
  intro hwired
  rw [h, hwired]
  rfl

theorem writeBytes_since {bytes : List UInt8}
    (hframed : ∀ s, P s → (SerialEvent.write bytes).FramedIn wired s)
    (hwritten : ∀ s, P s → Q (s.hear (.write bytes))) :
    Ensures (Since base wired P) (onBus (SerialBus.write bytes)) (fun _ => Since base wired Q)
      fun _ => Since base wired P := by
  intro t ht
  simp only [onBus, within, failingAs, SerialBus.write]
  by_cases hnow : t.bus.faults.now = true
  · rw [if_pos hnow]
    exact ht.logged rfl rfl fun s hs => ⟨hframed s hs, hs⟩
  · rw [if_neg hnow]
    exact ht.logged rfl rfl fun s hs => ⟨hframed s hs, hwritten s hs⟩

theorem write_commanded (bytes : List UInt8) :
    Keeps (Since base wired (Commanded wired)) (onBus (SerialBus.write bytes)) := by
  apply writeBytes_since
  · intro s hs
    refine ⟨selected_false hs.1.1, ?_⟩
    rw [if_pos hs.1.2]
    exact hs.2
  · intro s hs
    refine ⟨hs.1, ?_⟩
    change (s.commanded || !s.data) = true
    rw [hs.2, Bool.true_or]

theorem read_commanded (count : Nat) :
    Keeps (Since base wired (Commanded wired)) (onBus (SerialBus.read count)) := by
  intro t ht
  simp only [onBus, within, failingAs, SerialBus.read]
  by_cases hnow : t.bus.faults.now = true
  · rw [if_pos hnow]
    exact ht.logged rfl rfl fun s hs => ⟨⟨selected_false hs.1.1, hs.1.2, hs.2⟩, hs⟩
  · rw [if_neg hnow]
    exact ht.logged rfl rfl fun s hs => ⟨⟨selected_false hs.1.1, hs.1.2, hs.2⟩, hs⟩

theorem send_commands (command : UInt8) (arguments : List UInt8) :
    Commands base wired (send command arguments) := by
  unfold send
  refine Ensures.bind (Q := fun _ => Since base wired (Commanding wired)) ?_ fun _ => ?_
  · apply Ensures.modified
    intro t ht
    exact ht.logged rfl rfl fun s hs => ⟨trivial, hs.1, rfl⟩
  refine Ensures.bind (Q := fun _ => Since base wired (Commanded wired)) ?_ fun _ => ?_
  · -- the data line goes back up whether the command byte was sent or not
    have hwrite : Ensures (Since base wired (Commanding wired))
        (onBus (SerialBus.write [command]))
        (fun _ => Since base wired fun s => Commanding wired s ∧ s.commanded = true)
        fun _ => Since base wired (Commanding wired) := by
      apply writeBytes_since
      · intro s hs
        refine ⟨selected_false hs.1, ?_⟩
        rw [if_neg (by rw [hs.2]; decide)]
        rfl
      · intro s hs
        refine ⟨hs, ?_⟩
        change (s.commanded || !s.data) = true
        rw [hs.2, Bool.not_false, Bool.or_true]
    apply Ensures.closing
    apply hwrite.mono (fun _ h => h)
    · intro _ t ht
      exact ht.logged rfl rfl fun s hs => ⟨trivial, ⟨hs.1.1, rfl⟩, hs.2⟩
    · intro _ t ht
      exact ht.logged rfl rfl fun s hs => ⟨trivial, hs.1, rfl⟩
  · refine Ensures.ite (fun _ => ?_) fun _ => Ensures.pure fun _ h => h
    exact (write_commanded arguments).mono_error fun _ _ h => h.mono fun _ hs => hs.1

theorem setSelect_since (was high : Bool) {t : Tft}
    (h : Since base wired (fun s => s.select = (was || !wired) ∧ s.data = true) t) :
    Since base wired (fun s => s.select = (high || !wired) ∧ s.data = true)
      (t.setLine .select high) := by
  have hselect : t.isWired .select = wired := h.1
  unfold setLine
  cases wired with
  | true =>
    rw [if_pos hselect]
    exact h.logged rfl rfl fun s hs => ⟨trivial, (Bool.or_false high).symm, hs.2⟩
  | false =>
    rw [if_neg (by rw [hselect]; decide)]
    exact h.mono fun s hs => ⟨by rw [hs.1]; exact (Bool.or_true _).trans (Bool.or_true _).symm, hs.2⟩

theorem transaction_since {α : Type} {x : Action TftError Tft α}
    (h : Keeps (Since base wired (Selected wired)) x) :
    Keeps (Since base wired Idle) (transaction x) := by
  have hopen : ∀ t, Since base wired Idle t →
      Since base wired (Selected wired) (t.setLine .select false) :=
    fun _ ht => setSelect_since true false ht
  have hclose : ∀ t, Since base wired (Selected wired) t →
      Since base wired Idle (t.setLine .select true) :=
    fun _ ht => setSelect_since false true ht
  intro t ht
  have hx : Ensures (Since base wired (Selected wired)) (x.closing (setLine .select true))
      (fun _ => Since base wired Idle) fun _ => Since base wired Idle :=
    Ensures.closing (h.mono (fun _ hp => hp) (fun _ => hclose) fun _ => hclose)
  exact hx _ (hopen t ht)

theorem Commands.transaction {α : Type} {x : Action TftError Tft α}
    (h : Commands base wired x) : Keeps (Since base wired Idle) (transaction x) :=
  transaction_since (h.mono_post fun _ _ ht => ht.mono fun _ hs => hs.1)

theorem Commands.bind {α β : Type} {x : Action TftError Tft α} {f : α → Action TftError Tft β}
    (hx : Commands base wired x) (hf : ∀ a, Keeps (Since base wired (Commanded wired)) (f a)) :
    Commands base wired (x >>= f) :=
  Ensures.bind hx fun a => (hf a).mono_error fun _ _ ht => ht.mono fun _ hs => hs.1

theorem command_idle (c : UInt8) (arguments : List UInt8) :
    Keeps (Since base wired Idle) (command c arguments) :=
  Commands.transaction (send_commands c arguments)

theorem query_idle (c : UInt8) (count : Nat) : Keeps (Since base wired Idle) (query c count) :=
  Commands.transaction (Commands.bind (send_commands c []) fun _ => read_commanded count)

theorem sendWindow_commands (x y width height : Nat) :
    Commands base wired (sendWindow x y width height) := by
  have hnext (c : UInt8) (arguments : List UInt8) :
      Ensures (Since base wired (Commanded wired)) (send c arguments)
        (fun _ => Since base wired (Commanded wired)) fun _ => Since base wired (Selected wired) :=
    (send_commands c arguments).mono_pre fun _ ht => ht.mono fun _ hs => hs.1
  unfold sendWindow
  apply Ensures.get_bind
  intro t ht
  apply Ensures.mono_pre (P := Since base wired (Selected wired))
  · apply Ensures.bind (send_commands _ _)
    intro _
    apply Ensures.bind (hnext _ _)
    intro _
    exact hnext _ _
  · rintro _ rfl
    exact ht

theorem sendRepeated_commanded (bytes : List UInt8) (n : Nat) :
    Keeps (Since base wired (Commanded wired)) (sendRepeated bytes n) := by
  induction n with
  | zero => exact Keeps.pure ()
  | succ n ih =>
    unfold sendRepeated
    exact Keeps.bind (write_commanded bytes) fun _ => ih

theorem sendPixels_commanded (color : Color) (count : Nat) :
    Keeps (Since base wired (Commanded wired)) (sendPixels color count) := by
  unfold sendPixels
  apply Keeps.bind (sendRepeated_commanded _ _)
  intro _
  exact Keeps.ite (write_commanded _) (Keeps.pure _)

theorem setWindow_idle (x y width height : Nat) :
    Keeps (Since base wired Idle) (setWindow x y width height) := by
  unfold setWindow
  apply Keeps.ite
  · exact Keeps.pure _
  · exact Commands.transaction (sendWindow_commands x y width height)

theorem fillRect_idle (x y width height : Nat) (color : Color) :
    Keeps (Since base wired Idle) (fillRect x y width height color) := by
  unfold fillRect
  apply Keeps.get_bind
  intro t
  apply Keeps.ite
  · exact Keeps.throw _
  apply Keeps.ite
  · exact Keeps.pure _
  apply Commands.transaction
  apply Commands.bind (sendWindow_commands _ _ _ _)
  intro _
  exact sendPixels_commanded _ _

theorem sendCell_idle (x y : Nat) (c : Char) : Keeps (Since base wired Idle) (sendCell x y c) := by
  unfold sendCell
  apply Keeps.get_bind
  intro t
  apply Commands.transaction
  apply Commands.bind (sendWindow_commands _ _ _ _)
  intro _
  exact write_commanded _

theorem paintPlace_idle (x y : Nat) (glyph : List Nat) (place : Nat × Nat) :
    Keeps (Since base wired Idle) (paintPlace x y glyph place) := by
  unfold paintPlace
  apply Keeps.get_bind
  intro t
  apply Keeps.ite
  · exact Keeps.pure _
  apply Keeps.ite
  · exact fillRect_idle _ _ _ _ _
  apply Keeps.ite
  · exact fillRect_idle _ _ _ _ _
  · exact Keeps.pure _

theorem drawCharacter_idle (x y : Nat) (c : Char) :
    Keeps (Since base wired Idle) (drawCharacter x y c) := by
  unfold drawCharacter
  apply Keeps.get_bind
  intro t
  apply Keeps.ite
  · exact Keeps.throw _
  apply Keeps.ite
  · exact sendCell_idle x y c
  · exact Ensures.forM fun place _ => paintPlace_idle x y _ place

theorem modify_idle {f : Tft → Tft} (hbus : ∀ t, (f t).bus = t.bus)
    (hselect : ∀ t, (f t).hasSelect = t.hasSelect) :
    Keeps (Since base wired Idle) (modify f : Action TftError Tft PUnit) :=
  Keeps.modify fun t ht => ht.congr (hbus t) (hselect t)

theorem drawText_idle (text : List Char) : Keeps (Since base wired Idle) (drawText text) := by
  induction text with
  | nil => exact Keeps.pure _
  | cons c rest ih =>
    unfold drawText
    apply Keeps.ite
    · apply Keeps.bind
      · exact modify_idle (fun _ => rfl) fun _ => rfl
      · exact fun _ => ih
    apply Keeps.ite
    · apply Keeps.get_bind
      intro t
      apply Keeps.bind (drawCharacter_idle _ _ _)
      intro _
      apply Keeps.bind
      · exact modify_idle (fun _ => rfl) fun _ => rfl
      · exact fun _ => ih
    · exact ih

theorem clear_idle : Keeps (Since base wired Idle) clear := by
  unfold clear
  apply Keeps.get_bind
  intro t
  apply Keeps.bind (fillRect_idle _ _ _ _ _)
  intro _
  exact modify_idle (fun _ => rfl) fun _ => rfl

theorem setRotation_idle (rotation : Nat) :
    Keeps (Since base wired Idle) (setRotation rotation) := by
  unfold setRotation
  apply Keeps.get_bind
  intro t
  apply Keeps.bind
  · exact modify_idle (fun _ => rfl) fun _ => rfl
  · exact fun _ => command_idle _ _

theorem Since.recordAside {t : Tft} (h : Since base wired Idle t) {e : SerialEvent}
    (he : ∀ s, e.FramedIn wired s ∧ s.hear e = s) : Since base wired Idle (t.record e) :=
  h.logged rfl rfl fun s hs => ⟨(he s).1, by rw [(he s).2]; exact hs⟩

theorem Since.setReset {t : Tft} (h : Since base wired Idle t) (high : Bool) :
    Since base wired Idle (t.setLine .reset high) := by
  unfold setLine
  split
  · exact h.recordAside fun _ => ⟨trivial, rfl⟩
  · exact h

theorem Since.hardReset {t : Tft} (h : Since base wired Idle t) :
    Since base wired Idle t.hardReset := by
  unfold Tft.hardReset
  split
  · have hpulse := (h.setReset false).recordAside (e := .waitMicroseconds 20) fun _ => ⟨trivial, rfl⟩
    exact hpulse.setReset true
  · exact h

theorem runStep_idle (s : ScriptStep) : Keeps (Since base wired Idle) (runStep s) := by
  unfold runStep
  apply Keeps.bind (command_idle _ _)
  intro _
  cases s.milliseconds with
  | none => exact Keeps.pure _
  | some n => exact Keeps.modify fun _ ht => ht.recordAside fun _ => ⟨trivial, rfl⟩

theorem runTable_idle (table : List UInt8) : Keeps (Since base wired Idle) (runTable table) :=
  Ensures.forM fun s _ => runStep_idle s

theorem start_idle : Keeps (Since base wired Idle) start := by
  unfold start
  apply Keeps.bind
  · exact modify_idle (fun _ => rfl) fun _ => rfl
  intro _
  apply Keeps.bind
  · exact Keeps.modify fun _ ht => ht.hardReset
  intro _
  apply Keeps.bind (runTable_idle _)
  intro _
  apply Keeps.bind
  · exact modify_idle (fun _ => rfl) fun _ => rfl
  intro _
  apply Keeps.get_bind
  intro t
  apply Keeps.bind (setRotation_idle _)
  intro _
  exact clear_idle

theorem readIdentification_idle : Keeps (Since base wired Idle) readIdentification := by
  unfold readIdentification
  apply Keeps.bind (query_idle _ _)
  intro _
  apply Keeps.bind
  · exact Ensures.mapM fun c _ => query_idle c 1
  · exact fun _ => Keeps.pure _

theorem readRegister_idle (c : UInt8) : Keeps (Since base wired Idle) (readRegister c) := by
  unfold readRegister
  apply Keeps.bind (query_idle _ _)
  intro _
  exact Keeps.pure _

theorem readStatus_idle : Keeps (Since base wired Idle) readStatus := by
  unfold readStatus
  apply Keeps.bind (query_idle _ _)
  intro _
  apply Keeps.bind (readRegister_idle _)
  intro _
  apply Keeps.bind (readRegister_idle _)
  intro _
  apply Keeps.bind (readRegister_idle _)
  intro _
  exact Keeps.pure _

end Framing

inductive Operation where
  | start
  | hardReset
  | runTable (table : List UInt8)
  | command (command : UInt8) (arguments : List UInt8)
  | setRotation (rotation : Nat)
  | setWindow (x y width height : Nat)
  | fillRect (x y width height : Nat) (color : Color)
  | drawCharacter (x y : Nat) (c : Char)
  | drawText (text : List Char)
  | clear
  | readIdentification
  | readStatus
  | paint (change : Paint → Paint)

def Operation.after (t : Tft) : Operation → Tft
  | .start => Tft.start.after t
  | .hardReset => t.hardReset
  | .runTable table => (Tft.runTable table).after t
  | .command c arguments => (Tft.command c arguments).after t
  | .setRotation rotation => (Tft.setRotation rotation).after t
  | .setWindow x y width height => (Tft.setWindow x y width height).after t
  | .fillRect x y width height color => (Tft.fillRect x y width height color).after t
  | .drawCharacter x y c => (Tft.drawCharacter x y c).after t
  | .drawText text => (Tft.drawText text).after t
  | .clear => Tft.clear.after t
  | .readIdentification => Tft.readIdentification.after t
  | .readStatus => Tft.readStatus.after t
  | .paint change => mapPaint change t

variable {base : List SerialEvent} {wired : Bool}

theorem operation_idle (o : Operation) {t : Tft} (h : Since base wired Idle t) :
    Since base wired Idle (o.after t) := by
  cases o with
  | start => exact start_idle.after h
  | hardReset => exact h.hardReset
  | runTable table => exact (runTable_idle table).after h
  | command c arguments => exact (command_idle c arguments).after h
  | setRotation rotation => exact (setRotation_idle rotation).after h
  | setWindow x y width height => exact (setWindow_idle x y width height).after h
  | fillRect x y width height color => exact (fillRect_idle x y width height color).after h
  | drawCharacter x y c => exact (drawCharacter_idle x y c).after h
  | drawText text => exact (drawText_idle text).after h
  | clear => exact clear_idle.after h
  | readIdentification => exact readIdentification_idle.after h
  | readStatus => exact readStatus_idle.after h
  | paint change => exact h.congr rfl rfl

theorem operations_idle (os : List Operation) {t : Tft} (h : Since base wired Idle t) :
    Since base wired Idle (os.foldl Operation.after t) := by
  induction os generalizing t with
  | nil => exact h
  | cons o rest ih => exact ih (operation_idle o h)

theorem atRest_idle (faults : Faults) (incoming : List UInt8) (hasSelect hasReset : Bool)
    (input : Option InputAccumulator) (config : TftConfig) :
    Since [] hasSelect Idle (atRest { faults, incoming } hasSelect hasReset input config) := by
  unfold atRest setLine
  cases hasSelect with
  | true =>
    cases hasReset with
    | true =>
      exact ⟨rfl, [.level .data true, .level .reset true, .level .select true], rfl,
        ⟨trivial, trivial, trivial, trivial⟩, rfl, rfl⟩
    | false =>
      exact ⟨rfl, [.level .data true, .level .select true], rfl, ⟨trivial, trivial, trivial⟩, rfl, rfl⟩
  | false =>
    cases hasReset with
    | true =>
      exact ⟨rfl, [.level .data true, .level .reset true], rfl, ⟨trivial, trivial, trivial⟩, rfl, rfl⟩
    | false => exact ⟨rfl, [.level .data true], rfl, ⟨trivial, trivial⟩, rfl, rfl⟩

/-- Whatever was done before, and whichever transfers fail: after an operation the history is framed,
the events of the operation are framed by themselves, and the lines are high again. -/
theorem operation_framed (faults : Faults) (incoming : List UInt8) (hasSelect hasReset : Bool)
    (input : Option InputAccumulator) (config : TftConfig) (before : List Operation)
    (o : Operation) :
    let t := before.foldl Operation.after
      (atRest { faults, incoming } hasSelect hasReset input config)
    let t' := o.after t
    Framed hasSelect t'.bus.log ∧
      (LineState.after t'.bus.log).select = true ∧ (LineState.after t'.bus.log).data = true ∧
      ∃ events, t'.bus.log = events ++ t.bus.log ∧ Framed hasSelect events := by
  intro t t'
  have ht : Since [] hasSelect Idle t :=
    operations_idle before (atRest_idle faults incoming hasSelect hasReset input config)
  obtain ⟨_, history, hhistory, hframed, hselect, hdata⟩ := operation_idle o ht
  rw [List.append_nil] at hhistory
  -- the operation starts a history of its own
  have hown : Since t.bus.log hasSelect Idle t := ⟨ht.1, [], rfl, trivial, rfl, rfl⟩
  obtain ⟨_, events, hevents, hownFramed, _⟩ := operation_idle o hown
  have hlog : t'.bus.log = history := hhistory
  rw [hlog]
  exact ⟨hframed, hselect, hdata, events, hlog.symm.trans hevents, hownFramed⟩

end Tft

end FrontPanel
