import FrontPanel.Proofs.Sensor.Look

/-!
# The latch of the flow sensor

Setting the sensor up and resetting it fail loudly, and their failure is latched. An update latches only a
magnet that is missing; a reading that fails is left out. While a failure is latched there is no distance
and nothing is read, until a reset succeeds. All this holds for any row of calls, whichever of their
transfers fail.
-/

namespace FrontPanel

set_option autoImplicit false

open FrontPanel.Action

inductive FlowCall where
  | start
  | reset
  | update
  | report
  deriving DecidableEq

namespace FlowCall

open FlowSensor AngleSensor

variable {β : Type} [RegisterBus β]

def run : FlowCall → Action FlowError (FlowSensor × β) Unit
  | start => FlowSensor.start
  | reset => FlowSensor.reset
  | update => FlowSensor.update
  | report => modify fun s => (FlowSensor.report s).2

/-- Setting up ends with a reset. -/
def resets : FlowCall → Bool
  | start | reset => true
  | update | report => false

/-- All that a call can do: its exchanges, its result and the sensor afterwards. -/
inductive Does (f : FlowSensor) : FlowCall → List Exchange → Except FlowError Unit → FlowSensor → Prop
  | notSetUp {e : BusFault} :
      Does f start [setUpWrite (.error e)] (.error .communication) (f.stopped .communication)
  | setUp {exchanges : List Exchange} {result : Except FlowError Unit} {after : FlowSensor}
      (hreset : Does f reset exchanges result after) :
      Does f start (setUpWrite (.ok []) :: exchanges) result after
  | resetUnreadable {exchanges : List Exchange} (hlooked : Looked exchanges .unreadable) :
      Does f reset exchanges (.error .communication) (f.cleared.stopped .communication)
  | resetMissing {exchanges : List Exchange} (hlooked : Looked exchanges .missing) :
      Does f reset exchanges (.error .magnetMissing) (f.cleared.stopped .magnetMissing)
  | resetShown {exchanges : List Exchange} {raw : Nat} (hlooked : Looked exchanges (.shown raw)) :
      Does f reset exchanges (.ok ()) { f.cleared with origin := raw }
  | updateLatched (hlatched : f.error ≠ none) : Does f update [] (.ok ()) f
  | updateUnreadable {exchanges : List Exchange} (hrunning : f.error = none)
      (hlooked : Looked exchanges .unreadable) : Does f update exchanges (.ok ()) f
  | updateMissing {exchanges : List Exchange} (hrunning : f.error = none)
      (hlooked : Looked exchanges .missing) :
      Does f update exchanges (.error .magnetMissing) (f.stopped .magnetMissing)
  | updateShown {exchanges : List Exchange} {raw : Nat} (hrunning : f.error = none)
      (hlooked : Looked exchanges (.shown raw)) : Does f update exchanges (.ok ()) (f.advance raw)
  | reported {angle status : Except BusFault (List UInt8)} :
      Does f report [angleRead angle, statusRead status] (.ok ()) f

namespace Does

variable {f after : FlowSensor} {c : FlowCall} {exchanges : List Exchange}
  {result : Except FlowError Unit}

theorem latches {error : FlowError} (h : Does f c exchanges (.error error) after) :
    after.error = some error := by
  generalize hresult : Except.error error = result at h
  induction h with
  | setUp _ ih => exact ih hresult
  | notSetUp | resetUnreadable | resetMissing | updateMissing => cases hresult; rfl
  | _ => cases hresult

theorem reset_ok (h : Does f c exchanges (.ok ()) after) (hresets : c.resets = true) :
    after.turns = 0 ∧ after.lastAngle = 0 ∧ after.error = none ∧
      ∃ angle, exchanges.getLast? = some (angleRead (.ok angle)) ∧ after.origin = angleOf angle := by
  generalize hresult : (Except.ok () : Except FlowError Unit) = result at h
  induction h with
  | setUp _ ih =>
    obtain ⟨hturns, hangle, herror, angle, hlast, horigin⟩ := ih rfl hresult
    refine ⟨hturns, hangle, herror, angle, ?_, horigin⟩
    rw [List.getLast?_cons, hlast]
    rfl
  | resetShown hlooked => exact ⟨rfl, rfl, rfl, hlooked.getLast?_of_shown⟩
  | notSetUp | resetUnreadable | resetMissing => cases hresult
  | _ => cases hresets

theorem error_of_ok (h : Does f c exchanges (.ok ()) after) (hresets : c.resets = false) :
    after.error = f.error := by
  cases h with
  | updateLatched | updateUnreadable | updateShown | reported => rfl
  | _ => cases hresets

theorem update_fails_iff (h : Does f update exchanges result after) (error : FlowError) :
    result = .error error ↔ error = .magnetMissing ∧ f.error = none ∧
      ∃ status rest, exchanges = statusRead (.ok status) :: rest ∧ magnetOf status = .missing := by
  cases h with
  | updateLatched hlatched => simp [hlatched]
  | updateUnreadable hrunning hlooked =>
    rw [← hlooked.missing_iff]
    simp
  | updateMissing hrunning hlooked =>
    rw [← hlooked.missing_iff]
    simp [hrunning, eq_comm]
  | updateShown hrunning hlooked =>
    rw [← hlooked.missing_iff]
    simp

theorem update_of_latched (h : Does f update exchanges result after) (hlatched : f.error ≠ none) :
    exchanges = [] ∧ result = .ok () ∧ after = f := by
  cases h with
  | updateLatched => exact ⟨rfl, rfl, rfl⟩
  | updateUnreadable hrunning | updateMissing hrunning | updateShown hrunning =>
    exact absurd hrunning hlatched

theorem update_of_unread (h : Does f update exchanges result after) (hrunning : f.error = none)
    (hunread : ∃ fault,
      statusRead (.error fault) ∈ exchanges ∨ angleRead (.error fault) ∈ exchanges) :
    result = .ok () ∧ after = f := by
  cases h with
  | updateLatched hlatched => exact absurd hrunning hlatched
  | updateUnreadable => exact ⟨rfl, rfl⟩
  | updateMissing _ hlooked => cases hlooked.unreadable_iff.mpr hunread
  | updateShown _ hlooked => cases hlooked.unreadable_iff.mpr hunread

theorem report_keeps (h : Does f report exchanges result after) : result = .ok () ∧ after = f := by
  cases h with
  | reported => exact ⟨rfl, rfl⟩

theorem report_reads (h : Does f report exchanges result after) :
    ∃ angle status, exchanges = [angleRead angle, statusRead status] := by
  cases h with
  | reported => exact ⟨_, _, rfl⟩

theorem reset_looks (h : Does f reset exchanges result after) : ∃ found, Looked exchanges found := by
  cases h with
  | resetUnreadable hlooked | resetMissing hlooked | resetShown hlooked => exact ⟨_, hlooked⟩

theorem start_looks (h : Does f start exchanges result after) :
    (∃ fault, exchanges = [setUpWrite (.error fault)]) ∨
      ∃ looked found, exchanges = setUpWrite (.ok []) :: looked ∧ Looked looked found := by
  cases h with
  | notSetUp => exact Or.inl ⟨_, rfl⟩
  | setUp hreset =>
    obtain ⟨found, hlooked⟩ := hreset.reset_looks
    exact Or.inr ⟨_, found, rfl, hlooked⟩

theorem update_looks (h : Does f update exchanges result after) (hrunning : f.error = none) :
    ∃ found, Looked exchanges found := by
  cases h with
  | updateLatched hlatched => exact absurd hrunning hlatched
  | updateUnreadable _ hlooked | updateMissing _ hlooked | updateShown _ hlooked => exact ⟨_, hlooked⟩

theorem update_of_shown {status angle : List UInt8}
    (h : Does f update [statusRead (.ok status), angleRead (.ok angle)] result after) :
    result = .ok () ∧ after = f.advance (angleOf angle) := by
  cases h with
  | updateUnreadable _ hlooked | updateMissing _ hlooked => cases hlooked.eq_shown
  | updateShown _ hlooked =>
    cases hlooked.eq_shown
    exact ⟨rfl, rfl⟩

theorem reset_fails_iff (h : Does f c exchanges result after) (hresets : c.resets = true)
    (error : FlowError) :
    result = .error error ↔ (error = .communication ∧ ∃ x ∈ exchanges, x.Failed) ∨
      (error = .magnetMissing ∧
        ∃ status, statusRead (.ok status) ∈ exchanges ∧ magnetOf status = .missing) := by
  induction h with
  | @notSetUp fault =>
    have hfailed : ∃ x ∈ [setUpWrite (.error fault)], x.Failed := ⟨_, List.mem_cons_self, fault, rfl⟩
    have hunread : ∀ status, statusRead (.ok status) ∉ [setUpWrite (.error fault)] := by
      simp [statusRead, setUpWrite]
    simp only [hfailed, hunread, false_and, exists_false, and_true, and_false, or_false,
      Except.error.injEq, eq_comm]
  | setUp _ ih =>
    rw [ih rfl]
    simp [Exchange.Failed, setUpWrite, statusRead]
  | resetUnreadable hlooked | resetMissing hlooked | resetShown hlooked =>
    rw [← hlooked.failed_iff, ← hlooked.missing_iff_mem]
    simp [eq_comm]
  | _ => cases hresets

end Does

theorem reset_does (f : FlowSensor) (bus : Recorded β) :
    ∃ exchanges, (FlowSensor.reset.after (f, bus)).2.exchanges = bus.exchanges ++ exchanges ∧
      Does f reset exchanges (FlowSensor.reset.outcome (f, bus.inner))
        (FlowSensor.reset.after (f, bus.inner)).1 := by
  obtain ⟨exchanges, hlooked, hlook⟩ := look_recorded bus
  refine ⟨exchanges, ?_⟩
  simp only [Action.after, Action.outcome, reset_eq, hlook]
  rcases hplain : look bus.inner with ⟨found, after⟩
  rw [hplain] at hlooked
  cases found with
  | unreadable => exact ⟨rfl, .resetUnreadable hlooked⟩
  | missing => exact ⟨rfl, .resetMissing hlooked⟩
  | shown raw => exact ⟨rfl, .resetShown hlooked⟩

theorem start_does (f : FlowSensor) (bus : Recorded β) :
    ∃ exchanges, (FlowSensor.start.after (f, bus)).2.exchanges = bus.exchanges ++ exchanges ∧
      Does f start exchanges (FlowSensor.start.outcome (f, bus.inner))
        (FlowSensor.start.after (f, bus.inner)).1 := by
  rcases setUp_recorded bus with ⟨inner, hplain, hrecorded⟩ | ⟨e, inner, hplain, hrecorded⟩
  · obtain ⟨exchanges, hexchanges, hdoes⟩ :=
      reset_does f (⟨inner, bus.exchanges ++ [setUpWrite (.ok [])]⟩ : Recorded β)
    refine ⟨setUpWrite (.ok []) :: exchanges, ?_⟩
    rw [after_of_eq (start_of_ok hrecorded), after_of_eq (start_of_ok hplain),
      outcome_of_eq (start_of_ok hplain), hexchanges, List.append_assoc]
    exact ⟨rfl, .setUp hdoes⟩
  · refine ⟨[setUpWrite (.error e)], ?_⟩
    rw [after_of_error (start_of_error hrecorded), after_of_error (start_of_error hplain),
      outcome_of_error (start_of_error hplain)]
    exact ⟨rfl, .notSetUp⟩

theorem update_does (f : FlowSensor) (bus : Recorded β) :
    ∃ exchanges, (FlowSensor.update.after (f, bus)).2.exchanges = bus.exchanges ++ exchanges ∧
      Does f update exchanges (FlowSensor.update.outcome (f, bus.inner))
        (FlowSensor.update.after (f, bus.inner)).1 := by
  by_cases hrunning : f.error = none
  · obtain ⟨exchanges, hlooked, hlook⟩ := look_recorded bus
    refine ⟨exchanges, ?_⟩
    simp only [Action.after, Action.outcome, update_of_running hrunning, hlook]
    rcases hplain : look bus.inner with ⟨found, after⟩
    rw [hplain] at hlooked
    cases found with
    | unreadable => exact ⟨rfl, .updateUnreadable hrunning hlooked⟩
    | missing => exact ⟨rfl, .updateMissing hrunning hlooked⟩
    | shown raw => exact ⟨rfl, .updateShown hrunning hlooked⟩
  · refine ⟨[], ?_⟩
    simp only [Action.after, Action.outcome, update_of_latched hrunning, List.append_nil, true_and]
    exact .updateLatched hrunning

theorem report_does (f : FlowSensor) (bus : Recorded β) :
    ∃ exchanges, (report.run.after (f, bus)).2.exchanges = bus.exchanges ++ exchanges ∧
      Does f report exchanges (report.run.outcome (f, bus.inner))
        (report.run.after (f, bus.inner)).1 := by
  obtain ⟨angle, hangle⟩ := fetch_exchanges angleRegister 2 angleOf bus
  obtain ⟨status, hstatus⟩ := fetch_exchanges statusRegister 1 magnetOf
    ((fetch angleRegister 2 angleOf).after bus)
  refine ⟨[angleRead angle, statusRead status], ?_, .reported⟩
  refine hstatus.trans ?_
  rw [hangle, List.append_assoc]
  rfl

theorem does (c : FlowCall) (f : FlowSensor) (bus : Recorded β) :
    ∃ exchanges, (c.run.after (f, bus)).2.exchanges = bus.exchanges ++ exchanges ∧
      Does f c exchanges (c.run.outcome (f, bus.inner)) (c.run.after (f, bus.inner)).1 := by
  cases c with
  | start => exact start_does f bus
  | reset => exact reset_does f bus
  | update => exact update_does f bus
  | report => exact report_does f bus

end FlowCall

/-- A call that was made: the sensor before and after, its exchanges with the bus, and its result. -/
structure FlowEvent where
  call : FlowCall
  before : FlowSensor
  exchanges : List Exchange
  result : Except FlowError Unit
  after : FlowSensor

namespace FlowEvent

open FlowSensor AngleSensor

variable {β : Type} [RegisterBus β]

/-- A call on a bus. The exchanges are those of the same call while the bus remembers. -/
def of (f : FlowSensor) (c : FlowCall) (bus : β) : FlowEvent where
  call := c
  before := f
  exchanges := (c.run.after (f, (⟨bus, []⟩ : Recorded β))).2.exchanges
  result := c.run.outcome (f, bus)
  after := (c.run.after (f, bus)).1

theorem of_does (f : FlowSensor) (c : FlowCall) (bus : β) :
    (of f c bus).call.Does f (of f c bus).exchanges (of f c bus).result (of f c bus).after := by
  obtain ⟨exchanges, hexchanges, hdoes⟩ := c.does f (⟨bus, []⟩ : Recorded β)
  rw [show (of f c bus).exchanges = exchanges from hexchanges]
  exact hdoes

/-- What the bus answers to a read of the status decides on an update while nothing is latched. -/
theorem update_fails_iff_of_running {f : FlowSensor} (hrunning : f.error = none) (bus : β)
    (error : FlowError) :
    (of f .update bus).result = .error error ↔
      error = .magnetMissing ∧ readMagnet.outcome bus = .ok .missing := by
  change FlowSensor.update.outcome (f, bus) = .error error ↔ _
  simp only [Action.outcome, update_of_running hrunning]
  cases hstatus : (readMagnet : Action BusFault β Magnet) bus with
  | error _ _ => simp [look_of_status_error hstatus]
  | ok magnet after =>
    by_cases hseen : magnet = .missing
    · simp [look_of_missing (hseen ▸ hstatus), hseen, eq_comm]
    · cases hangle : (readAngle : Action BusFault β Nat) after with
      | error _ _ => simp [look_of_angle_error hstatus hseen hangle, hseen]
      | ok _ _ => simp [look_of_angle hstatus hseen hangle, hseen]

/-- What is latched after a call, by what was latched before it. -/
def latch (error : Option FlowError) (e : FlowEvent) : Option FlowError :=
  match e.result with
  | .error verdict => some verdict
  | .ok _ => if e.call.resets then none else error

/-- A reset, or a start, that succeeds. -/
def Clears (e : FlowEvent) : Prop := e.call.resets = true ∧ e.result = .ok ()

def UpdateFails (e : FlowEvent) : Prop := e.call = .update ∧ e.result ≠ .ok ()

/-- The laws of a single call. -/
structure Lawful (e : FlowEvent) : Prop where
  /-- A start sets the sensor up, and then looks at it unless that failed. -/
  start_looks : e.call = .start → (∃ fault, e.exchanges = [setUpWrite (.error fault)]) ∨
    ∃ looked found, e.exchanges = setUpWrite (.ok []) :: looked ∧ Looked looked found
  reset_looks : e.call = .reset → ∃ found, Looked e.exchanges found
  /-- While nothing is latched, an update reads the status, and the angle unless the magnet is missing. -/
  update_looks : e.call = .update → e.before.error = none → ∃ found, Looked e.exchanges found
  /-- An update fails exactly if nothing is latched and the status shows that the magnet is missing. -/
  update_fails : e.call = .update → ∀ error, e.result = .error error ↔
    error = .magnetMissing ∧ e.before.error = none ∧
      ∃ status rest, e.exchanges = statusRead (.ok status) :: rest ∧ magnetOf status = .missing
  update_latched : e.call = .update → e.before.error ≠ none →
    e.exchanges = [] ∧ e.result = .ok () ∧ e.after = e.before
  update_unread : e.call = .update → e.before.error = none →
    (∃ fault, statusRead (.error fault) ∈ e.exchanges ∨ angleRead (.error fault) ∈ e.exchanges) →
      e.result = .ok () ∧ e.after = e.before
  update_shown : e.call = .update → ∀ status angle,
    e.exchanges = [statusRead (.ok status), angleRead (.ok angle)] →
      e.result = .ok () ∧ e.after = e.before.advance (angleOf angle)
  /-- A reset fails exactly if a transfer fails or the status shows that the magnet is missing. -/
  reset_fails : e.call.resets = true → ∀ error, e.result = .error error ↔
    (error = .communication ∧ ∃ x ∈ e.exchanges, x.Failed) ∨
      (error = .magnetMissing ∧
        ∃ status, statusRead (.ok status) ∈ e.exchanges ∧ magnetOf status = .missing)
  reset_ok : e.Clears → e.after.turns = 0 ∧ e.after.lastAngle = 0 ∧ e.after.error = none ∧
    ∃ angle, e.exchanges.getLast? = some (angleRead (.ok angle)) ∧ e.after.origin = angleOf angle
  fails : ∀ error, e.result = .error error → e.after.error = some error
  report_reads : e.call = .report →
    ∃ angle status, e.exchanges = [angleRead angle, statusRead status]
  report_keeps : e.call = .report → e.result = .ok () ∧ e.after = e.before

/-- The laws hold of all that a call can do. -/
theorem lawful_of_does {e : FlowEvent} (h : e.call.Does e.before e.exchanges e.result e.after) :
    e.Lawful where
  start_looks hcall := by
    rw [hcall] at h
    exact h.start_looks
  reset_looks hcall := by
    rw [hcall] at h
    exact h.reset_looks
  update_looks hcall hrunning := by
    rw [hcall] at h
    exact h.update_looks hrunning
  update_fails hcall := by
    rw [hcall] at h
    exact h.update_fails_iff
  update_latched hcall hlatched := by
    rw [hcall] at h
    exact h.update_of_latched hlatched
  update_unread hcall hrunning hunread := by
    rw [hcall] at h
    exact h.update_of_unread hrunning hunread
  update_shown hcall status angle hexchanges := by
    rw [hcall, hexchanges] at h
    exact h.update_of_shown
  reset_fails hresets := h.reset_fails_iff hresets
  reset_ok hclears := by
    obtain ⟨hresets, hresult⟩ := hclears
    rw [hresult] at h
    exact h.reset_ok hresets
  fails error hresult := by
    rw [hresult] at h
    exact h.latches
  report_reads hcall := by
    rw [hcall] at h
    exact h.report_reads
  report_keeps hcall := by
    rw [hcall] at h
    exact h.report_keeps

theorem error_after {e : FlowEvent} (h : e.call.Does e.before e.exchanges e.result e.after) :
    e.after.error = latch e.before.error e := by
  unfold latch
  cases hresult : e.result with
  | error error =>
    rw [hresult] at h
    exact h.latches
  | ok =>
    rw [hresult] at h
    cases hresets : e.call.resets with
    | true => exact (h.reset_ok hresets).2.2.1
    | false => exact h.error_of_ok hresets

/-- What is latched after a row of calls. Nothing is latched before it. -/
def latched (history : List FlowEvent) : Option FlowError :=
  history.foldl latch none

/-- A failure is not latched any more only if a reset succeeded. -/
theorem exists_clears {events : List FlowEvent} {error : Option FlowError} (herror : error ≠ none)
    (h : events.foldl latch error = none) : ∃ e ∈ events, e.Clears := by
  induction events generalizing error with
  | nil => exact absurd h herror
  | cons e rest ih =>
    by_cases hclears : e.Clears
    · exact ⟨e, List.mem_cons_self, hclears⟩
    · have hlatch : latch error e ≠ none := by
        unfold latch
        cases hresult : e.result with
        | error verdict => simp
        | ok =>
          have hresets : ¬e.call.resets = true := fun hresets => hclears ⟨hresets, hresult⟩
          simpa only [if_neg hresets] using herror
      obtain ⟨e', hmem, he'⟩ := ih hlatch h
      exact ⟨e', List.mem_cons_of_mem _ hmem, he'⟩

/-- The calls of a row in turn, each with the bus as it is then. -/
def history (f : FlowSensor) : List (FlowCall × β) → List FlowEvent
  | [] => []
  | (c, bus) :: rest => of f c bus :: history (of f c bus).after rest

theorem calls_of_history (f : FlowSensor) (calls : List (FlowCall × β)) :
    (history f calls).map call = calls.map Prod.fst := by
  induction calls generalizing f with
  | nil => rfl
  | cons c rest ih => exact congrArg (c.1 :: ·) (ih _)

/-- Each event is what became of a call on the bus that the call was made with, and begins with what the
events before it have latched. -/
theorem event_of_history {f : FlowSensor} {calls : List (FlowCall × β)} {earlier later : List FlowEvent}
    {e : FlowEvent} (h : history f calls = earlier ++ e :: later) :
    e.before.error = earlier.foldl latch f.error ∧
      ∃ bus, calls[earlier.length]? = some (e.call, bus) ∧ e = of e.before e.call bus := by
  induction earlier generalizing f calls with
  | nil =>
    cases calls with
    | nil => cases h
    | cons c rest =>
      cases h
      exact ⟨rfl, c.2, rfl, rfl⟩
  | cons e' earlier ih =>
    cases calls with
    | nil => cases h
    | cons c rest =>
      obtain ⟨rfl, hrest⟩ := List.cons.inj h
      obtain ⟨herror, hcall⟩ := ih hrest
      refine ⟨?_, hcall⟩
      rw [herror, error_after (of_does f c.1 c.2)]
      rfl

theorem error_of_history {f : FlowSensor} {calls : List (FlowCall × β)}
    {earlier later : List FlowEvent} {e : FlowEvent} (h : history f calls = earlier ++ e :: later) :
    e.before.error = earlier.foldl latch f.error ∧
      e.call.Does e.before e.exchanges e.result e.after := by
  obtain ⟨herror, bus, -, he⟩ := event_of_history h
  have hdoes := of_does e.before e.call bus
  rw [← he] at hdoes
  exact ⟨herror, hdoes⟩

theorem latched_append (earlier : List FlowEvent) (e : FlowEvent) :
    latched (earlier ++ [e]) = latch (latched earlier) e := by
  simp only [latched, List.foldl_append, List.foldl_cons, List.foldl_nil]

end FlowEvent

namespace FlowSensor

open FlowEvent

variable {β : Type} [RegisterBus β]

theorem distance_eq_none_iff (f : FlowSensor) : f.distance = none ↔ f.error ≠ none := by
  unfold distance
  cases f.error <;> simp

theorem clears_between {s : FlowSettings} {calls : List (FlowCall × β)}
    {earlier between later : List FlowEvent} {first second : FlowEvent}
    (h : history (ofSettings s) calls = earlier ++ first :: (between ++ second :: later))
    (hfirst : first.UpdateFails) (hsecond : second.UpdateFails) : ∃ e ∈ between, e.Clears := by
  obtain ⟨hbefore, hdoes⟩ := error_of_history
    (h.trans (List.append_assoc earlier (first :: between) (second :: later)).symm)
  obtain ⟨-, hfirstDoes⟩ := error_of_history h
  have hfailed : first.after.error ≠ none := by
    cases hresult : first.result with
    | ok => exact absurd hresult hfirst.2
    | error error =>
      rw [(lawful_of_does hfirstDoes).fails error hresult]
      exact Option.some_ne_none error
  have hrunning : second.before.error = none := by
    cases hresult : second.result with
    | ok => exact absurd hresult hsecond.2
    | error error => exact (((lawful_of_does hdoes).update_fails hsecond.1 error).mp hresult).2.1
  obtain ⟨herror, -⟩ := error_of_history h
  rw [error_after hfirstDoes, herror] at hfailed
  refine exists_clears hfailed ?_
  rw [← hrunning, hbefore, List.foldl_append]
  rfl

/-- In any row of calls, whichever of their transfers fail, an error is latched exactly if the latest call
that failed was not followed by a successful reset, and every call keeps the laws. An update fails exactly if
nothing is latched and the bus answers that the magnet is missing. Between two updates that fail there is
always a successful reset. -/
theorem latch_of_calls (s : FlowSettings) (calls : List (FlowCall × β)) :
    let history := history (ofSettings s) calls
    history.map FlowEvent.call = calls.map Prod.fst ∧
      (∀ earlier e later, history = earlier ++ e :: later →
        e.Lawful ∧
          (∃ bus, calls[earlier.length]? = some (e.call, bus) ∧
            e = of e.before e.call bus ∧
            (e.call = .update → e.before.error = none → ∀ error, e.result = .error error ↔
              error = .magnetMissing ∧ AngleSensor.readMagnet.outcome bus = .ok .missing)) ∧
          e.before.error = latched earlier ∧ (e.before.distance = none ↔ latched earlier ≠ none) ∧
          e.after.error = latched (earlier ++ [e]) ∧
          (e.after.distance = none ↔ latched (earlier ++ [e]) ≠ none)) ∧
      ∀ earlier first between second later,
        history = earlier ++ first :: (between ++ second :: later) →
          first.UpdateFails → second.UpdateFails → ∃ e ∈ between, e.Clears := by
  intro history
  refine ⟨calls_of_history _ _, ?_, fun _ _ _ _ _ h => clears_between h⟩
  intro earlier e later h
  obtain ⟨hbefore, hdoes⟩ := error_of_history h
  have herror : e.before.error = latched earlier := hbefore
  have hafter : e.after.error = latched (earlier ++ [e]) := by
    rw [latched_append, ← herror, error_after hdoes]
  obtain ⟨-, bus, hcall, he⟩ := event_of_history h
  refine ⟨lawful_of_does hdoes, ⟨bus, hcall, he, fun hupdate hrunning error => ?_⟩, herror, ?_, hafter, ?_⟩
  · rw [he, hupdate]
    exact update_fails_iff_of_running hrunning bus error
  · rw [distance_eq_none_iff, herror]
  · rw [distance_eq_none_iff, hafter]

end FlowSensor

end FrontPanel
