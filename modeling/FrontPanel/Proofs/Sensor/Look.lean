import FrontPanel.Proofs.Action
import FrontPanel.Sensor.Flow

/-!
# Looking at the flow sensor

A reset and an update look at the sensor in the same way: at the status, and at the angle if the magnet is
there. What they do then depends only on what the look finds, and the exchanges with the bus show it.
-/

namespace FrontPanel

set_option autoImplicit false

open FrontPanel.Action

/-- A transaction and how it ended. -/
structure Exchange where
  address : Nat
  transfers : List RegisterTransfer
  outcome : Except BusFault (List UInt8)

def Exchange.Failed (x : Exchange) : Prop := ∃ fault, x.outcome = .error fault

/-- A bus that remembers its transactions, the latest last. -/
structure Recorded (β : Type) where
  inner : β
  exchanges : List Exchange := []

namespace Recorded

variable {β α : Type}

def recording (address : Nat) (transfers : List RegisterTransfer) (bytes : α → List UInt8)
    (x : Action BusFault β α) : Action BusFault (Recorded β) α := fun b =>
  match x b.inner with
  | .ok a inner => .ok a ⟨inner, b.exchanges ++ [⟨address, transfers, .ok (bytes a)⟩]⟩
  | .error e inner => .error e ⟨inner, b.exchanges ++ [⟨address, transfers, .error e⟩]⟩

instance [RegisterBus β] : RegisterBus (Recorded β) where
  write address data := recording address [.write data] (fun _ => []) (RegisterBus.write address data)
  read address count := recording address [.read count] id (RegisterBus.read address count)
  writeRead address data count :=
    recording address [.write data, .read count] id (RegisterBus.writeRead address data count)

end Recorded

namespace AngleSensor

def setUpWrite (outcome : Except BusFault (List UInt8)) : Exchange :=
  ⟨address, [.write [configurationRegister, filterSetting]], outcome⟩

def statusRead (outcome : Except BusFault (List UInt8)) : Exchange :=
  ⟨address, [.write [statusRegister], .read 1], outcome⟩

def angleRead (outcome : Except BusFault (List UInt8)) : Exchange :=
  ⟨address, [.write [angleRegister], .read 2], outcome⟩

def magnetOf (bytes : List UInt8) : Magnet := Magnet.ofStatus (bytes.getD 0 0)

end AngleSensor

namespace FlowSensor

open AngleSensor

/-- What a look at the sensor finds. -/
inductive Look where
  | unreadable
  | missing
  | shown (raw : Nat)

/-- Looks at the status, and at the angle if the magnet is there. -/
def look {β : Type} [RegisterBus β] (bus : β) : Look × β :=
  match readMagnet bus with
  | .error _ bus => (.unreadable, bus)
  | .ok .missing bus => (.missing, bus)
  | .ok _ bus =>
    match readAngle bus with
    | .error _ bus => (.unreadable, bus)
    | .ok raw bus => (.shown raw, bus)

/-- What is found, by the exchanges of the look. -/
inductive Looked : List Exchange → Look → Prop
  | noStatus {e : BusFault} : Looked [statusRead (.error e)] .unreadable
  | missing {status : List UInt8} (h : magnetOf status = .missing) :
      Looked [statusRead (.ok status)] .missing
  | noAngle {status : List UInt8} {e : BusFault} (h : magnetOf status ≠ .missing) :
      Looked [statusRead (.ok status), angleRead (.error e)] .unreadable
  | shown {status angle : List UInt8} (h : magnetOf status ≠ .missing) :
      Looked [statusRead (.ok status), angleRead (.ok angle)] (.shown (angleOf angle))

namespace Looked

variable {exchanges : List Exchange} {found : Look}

theorem missing_iff (h : Looked exchanges found) :
    found = .missing ↔
      ∃ status rest, exchanges = statusRead (.ok status) :: rest ∧ magnetOf status = .missing := by
  cases h with
  | noStatus => simp [statusRead]
  | missing hmissing => simp [statusRead, hmissing]
  | noAngle hseen => simp [statusRead, hseen]
  | shown hseen => simp [statusRead, hseen]

theorem unreadable_iff (h : Looked exchanges found) :
    found = .unreadable ↔
      ∃ fault, statusRead (.error fault) ∈ exchanges ∨ angleRead (.error fault) ∈ exchanges := by
  cases h with
  | noStatus => exact iff_of_true rfl ⟨_, Or.inl List.mem_cons_self⟩
  | missing => simp [statusRead, angleRead]
  | noAngle => exact iff_of_true rfl ⟨_, Or.inr (List.mem_cons_of_mem _ List.mem_cons_self)⟩
  | shown => simp [statusRead, angleRead]

theorem failed_iff (h : Looked exchanges found) : found = .unreadable ↔ ∃ x ∈ exchanges, x.Failed := by
  cases h with
  | noStatus => exact iff_of_true rfl ⟨_, List.mem_cons_self, _, rfl⟩
  | missing => simp [Exchange.Failed, statusRead]
  | noAngle => exact iff_of_true rfl ⟨_, List.mem_cons_of_mem _ List.mem_cons_self, _, rfl⟩
  | shown => simp [Exchange.Failed, statusRead, angleRead]

theorem missing_iff_mem (h : Looked exchanges found) :
    found = .missing ↔ ∃ status, statusRead (.ok status) ∈ exchanges ∧ magnetOf status = .missing := by
  cases h with
  | noStatus => simp [statusRead]
  | missing hmissing => simp [statusRead, hmissing]
  | noAngle hseen => simp [statusRead, angleRead, hseen]
  | shown hseen => simp [statusRead, angleRead, hseen]

theorem eq_shown {status angle : List UInt8}
    (h : Looked [statusRead (.ok status), angleRead (.ok angle)] found) :
    found = .shown (angleOf angle) := by
  generalize hexchanges : [statusRead (.ok status), angleRead (.ok angle)] = exchanges at h
  cases h with
  | noStatus | missing => simp at hexchanges
  | noAngle => simp [angleRead] at hexchanges
  | shown =>
    simp only [angleRead, List.cons.injEq, Exchange.mk.injEq, true_and, Except.ok.injEq] at hexchanges
    rw [hexchanges.2.1]

theorem getLast?_of_shown {raw : Nat} (h : Looked exchanges (.shown raw)) :
    ∃ angle, exchanges.getLast? = some (angleRead (.ok angle)) ∧ raw = angleOf angle := by
  cases h with
  | shown => exact ⟨_, rfl, rfl⟩

end Looked

section Recorded

variable {β γ : Type} [RegisterBus β]

/-- Reads registers and makes something of their bytes. -/
def fetch (register : UInt8) (count : Nat) (g : List UInt8 → γ) : Action BusFault β γ := do
  return g (← RegisterBus.writeRead address [register] count)

theorem fetch_recorded (register : UInt8) (count : Nat) (g : List UInt8 → γ) (bus : Recorded β) :
    let read := Exchange.mk address [.write [register], .read count]
    (∃ bytes inner, fetch register count g bus.inner = .ok (g bytes) inner ∧
        fetch register count g bus = .ok (g bytes) ⟨inner, bus.exchanges ++ [read (.ok bytes)]⟩) ∨
      ∃ e inner, fetch register count g bus.inner = .error e inner ∧
        fetch register count g bus = .error e ⟨inner, bus.exchanges ++ [read (.error e)]⟩ := by
  intro read
  unfold fetch
  cases hrun : (RegisterBus.writeRead address [register] count : Action BusFault β _) bus.inner with
  | ok bytes inner =>
    refine Or.inl ⟨bytes, inner, bind_of_ok hrun, bind_of_ok ?_⟩
    simp only [RegisterBus.writeRead, Recorded.recording, hrun, id]
    rfl
  | error e inner =>
    refine Or.inr ⟨e, inner, bind_of_error hrun, bind_of_error ?_⟩
    simp only [RegisterBus.writeRead, Recorded.recording, hrun]
    rfl

theorem fetch_exchanges (register : UInt8) (count : Nat) (g : List UInt8 → γ) (bus : Recorded β) :
    ∃ outcome, ((fetch register count g).after bus).exchanges =
      bus.exchanges ++ [⟨address, [.write [register], .read count], outcome⟩] := by
  rcases fetch_recorded register count g bus with ⟨bytes, inner, -, hrun⟩ | ⟨e, inner, -, hrun⟩
  · exact ⟨.ok bytes, by simp only [Action.after, hrun]⟩
  · exact ⟨.error e, by simp only [Action.after, hrun]⟩

theorem setUp_recorded (bus : Recorded β) :
    (∃ inner, setUp bus.inner = .ok () inner ∧
        setUp bus = .ok () ⟨inner, bus.exchanges ++ [setUpWrite (.ok [])]⟩) ∨
      ∃ e inner, setUp bus.inner = .error e inner ∧
        setUp bus = .error e ⟨inner, bus.exchanges ++ [setUpWrite (.error e)]⟩ := by
  unfold setUp
  cases hrun : (RegisterBus.write address [configurationRegister, filterSetting] :
      Action BusFault β _) bus.inner with
  | ok _ inner =>
    refine Or.inl ⟨inner, rfl, ?_⟩
    simp only [RegisterBus.write, Recorded.recording, hrun]
    rfl
  | error e inner =>
    refine Or.inr ⟨e, inner, rfl, ?_⟩
    simp only [RegisterBus.write, Recorded.recording, hrun]
    rfl

section Looking

variable {bus after after' : β} {magnet : Magnet} {raw : Nat} {e : BusFault}

theorem look_of_status_error (hstatus : readMagnet bus = .error e after) :
    look bus = (.unreadable, after) := by
  simp only [look, hstatus]

theorem look_of_missing (hstatus : readMagnet bus = .ok .missing after) :
    look bus = (.missing, after) := by
  simp only [look, hstatus]

theorem look_of_angle_error (hstatus : readMagnet bus = .ok magnet after) (hseen : magnet ≠ .missing)
    (hangle : readAngle after = .error e after') : look bus = (.unreadable, after') := by
  cases magnet with
  | missing => exact absurd rfl hseen
  | _ => simp only [look, hstatus, hangle]

theorem look_of_angle (hstatus : readMagnet bus = .ok magnet after) (hseen : magnet ≠ .missing)
    (hangle : readAngle after = .ok raw after') : look bus = (.shown raw, after') := by
  cases magnet with
  | missing => exact absurd rfl hseen
  | _ => simp only [look, hstatus, hangle]

end Looking

/-- A bus that remembers shows what the bus within shows. -/
theorem look_recorded (bus : Recorded β) :
    ∃ exchanges, Looked exchanges (look bus.inner).1 ∧
      look bus = ((look bus.inner).1, ⟨(look bus.inner).2, bus.exchanges ++ exchanges⟩) := by
  rcases fetch_recorded statusRegister 1 magnetOf bus with
    ⟨status, inner, hplain, hstatus⟩ | ⟨e, inner, hplain, hstatus⟩
  · by_cases hseen : magnetOf status = .missing
    · rw [hseen] at hplain hstatus
      rw [look_of_missing hplain]
      exact ⟨_, .missing hseen, look_of_missing hstatus⟩
    · rcases fetch_recorded angleRegister 2 angleOf
          ⟨inner, bus.exchanges ++ [statusRead (.ok status)]⟩ with
        ⟨angle, inner', hplain', hangle⟩ | ⟨e, inner', hplain', hangle⟩
      · rw [look_of_angle hplain hseen hplain']
        refine ⟨[statusRead (.ok status), angleRead (.ok angle)], .shown hseen,
          (look_of_angle hstatus hseen hangle).trans ?_⟩
        rw [List.append_assoc]
        rfl
      · rw [look_of_angle_error hplain hseen hplain']
        refine ⟨[statusRead (.ok status), angleRead (.error e)], .noAngle hseen,
          (look_of_angle_error hstatus hseen hangle).trans ?_⟩
        rw [List.append_assoc]
        rfl
  · rw [look_of_status_error hplain]
    exact ⟨_, .noStatus, look_of_status_error hstatus⟩

end Recorded

section Asking

variable {α β : Type} {x : Action BusFault β α} {f : FlowSensor} {bus after : β}

theorem ask_of_ok {a : α} (h : x bus = .ok a after) : ask x (f, bus) = .ok (.ok a) (f, after) := by
  simp only [ask, Action.outcome, Action.after, h]

theorem ask_of_error {e : BusFault} (h : x bus = .error e after) :
    ask x (f, bus) = .ok (.error e) (f, after) := by
  simp only [ask, Action.outcome, Action.after, h]

end Asking

section Calls

variable {β : Type} [RegisterBus β]

/-- The sensor as a reset begins with it. -/
def cleared (f : FlowSensor) : FlowSensor := { f with turns := 0, lastAngle := 0, error := none }

def stopped (e : FlowError) (f : FlowSensor) : FlowSensor := { f with error := some e }

/-- What follows on a look depends on what it finds. -/
theorem asked_eq (unreadable missing : Action FlowError (FlowSensor × β) Unit)
    (shown : Nat → Action FlowError (FlowSensor × β) Unit) (f : FlowSensor) (bus : β) :
    (do
      match ← ask AngleSensor.readMagnet with
      | .error _ => unreadable
      | .ok .missing => missing
      | .ok _ =>
        match ← ask AngleSensor.readAngle with
        | .error _ => unreadable
        | .ok raw => shown raw : Action FlowError (FlowSensor × β) Unit) (f, bus) =
      match look bus with
      | (.unreadable, after) => unreadable (f, after)
      | (.missing, after) => missing (f, after)
      | (.shown raw, after) => shown raw (f, after) := by
  cases hstatus : (readMagnet : Action BusFault β Magnet) bus with
  | error e after =>
    rw [bind_of_ok (ask_of_error hstatus), look_of_status_error hstatus]
  | ok magnet after =>
    rw [bind_of_ok (ask_of_ok hstatus)]
    by_cases hseen : magnet = .missing
    · subst hseen
      rw [look_of_missing hstatus]
    · cases hangle : (readAngle : Action BusFault β Nat) after with
      | error e after' =>
        rw [look_of_angle_error hstatus hseen hangle]
        cases magnet with
        | missing => exact absurd rfl hseen
        | _ => exact bind_of_ok (ask_of_error hangle)
      | ok raw after' =>
        rw [look_of_angle hstatus hseen hangle]
        cases magnet with
        | missing => exact absurd rfl hseen
        | _ => exact bind_of_ok (ask_of_ok hangle)

theorem reset_eq (f : FlowSensor) (bus : β) :
    reset (f, bus) = match look bus with
      | (.unreadable, after) => .error .communication (f.cleared.stopped .communication, after)
      | (.missing, after) => .error .magnetMissing (f.cleared.stopped .magnetMissing, after)
      | (.shown raw, after) => .ok () ({ f.cleared with origin := raw }, after) := by
  unfold reset
  refine (bind_of_ok (t := (f.cleared, bus)) rfl).trans ?_
  exact asked_eq _ _ _ _ _

theorem update_of_latched {f : FlowSensor} (h : f.error ≠ none) (bus : β) :
    update (f, bus) = .ok () (f, bus) := by
  unfold update
  refine (bind_of_ok (t := (f, bus)) rfl).trans ?_
  simp only [Option.isSome_iff_ne_none.mpr h, if_true]
  rfl

theorem update_of_running {f : FlowSensor} (h : f.error = none) (bus : β) :
    update (f, bus) = match look bus with
      | (.unreadable, after) => .ok () (f, after)
      | (.missing, after) => .error .magnetMissing (f.stopped .magnetMissing, after)
      | (.shown raw, after) => .ok () (f.advance raw, after) := by
  unfold update
  refine (bind_of_ok (t := (f, bus)) rfl).trans ?_
  simp only [h, Option.isSome_none, Bool.false_eq_true, if_false]
  exact asked_eq _ _ _ _ _

theorem start_of_error {f : FlowSensor} {bus after : β} {e : BusFault} (h : setUp bus = .error e after) :
    start (f, bus) = .error .communication (f.stopped .communication, after) :=
  (bind_of_ok (ask_of_error h)).trans rfl

theorem start_of_ok {f : FlowSensor} {bus after : β} (h : setUp bus = .ok () after) :
    start (f, bus) = reset (f, after) :=
  bind_of_ok (ask_of_ok h)

end Calls

end FlowSensor

end FrontPanel
