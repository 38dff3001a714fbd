import FrontPanel.Controller.Basic
import FrontPanel.Proofs.Menu.Mode
import FrontPanel.Proofs.Page.Settled

/-!
# The input that sampler and panel share

The display of the panel holds the input, into which the sampler publishes and from which the panel reads. The
tasks start with such an input, and neither drawing nor a page nor reading takes it away again: a sample
always has a place to be published to.
-/

namespace FrontPanel

set_option autoImplicit false

open FrontPanel.Action (Ensures Keeps)

namespace Tft

def HasInput (t : Tft) : Prop := t.input.isSome = true

theorem hasInput_steady : IsSteady HasInput := ⟨fun _ _ h => h, fun _ _ _ h => h⟩

theorem atRest_hasInput (bus : SerialBus) (wiredSelect wiredReset : Bool) (a : InputAccumulator)
    (config : TftConfig) : (atRest bus wiredSelect wiredReset (some a) config).HasInput := by
  unfold atRest
  iterate 3 refine IgnoresBus.setLine hasInput_steady.bus ?_ _ _
  exact rfl

theorem publish_hasInput (buttons : ButtonMask) (steps : Int) {t : Tft} (h : t.HasInput) :
    (t.publish buttons steps).HasInput := by
  simpa only [HasInput, publish, Option.isSome_map] using h

theorem setRotation_keepsInput (rotation : Nat) : Keeps HasInput (setRotation rotation) := by
  unfold setRotation
  refine Keeps.get_bind fun _ => ?_
  refine Keeps.bind (Keeps.modify fun _ h => h) fun _ => ?_
  exact command_keeps hasInput_steady.bus _ _

theorem start_keepsInput : Keeps HasInput (Display.start : Draw Tft Unit) := by
  refine drawing_keeps ?_
  unfold start
  refine Keeps.bind (Keeps.modify fun _ h => h) fun _ => ?_
  refine Keeps.bind (Keeps.modify fun _ h => IgnoresBus.hardReset hasInput_steady.bus h) fun _ => ?_
  refine Keeps.bind (runTable_keeps hasInput_steady.bus _) fun _ => ?_
  refine Keeps.bind (Keeps.modify fun _ h => h) fun _ => ?_
  refine Keeps.get_bind fun t => ?_
  exact Keeps.bind (setRotation_keepsInput _) fun _ => clear_keeps hasInput_steady

theorem readSteps_keepsInput {t : Tft} (h : t.HasInput) : (readSteps t).2.HasInput := by
  unfold readSteps
  cases hinput : t.input with
  | none => exact h
  | some a => rfl

theorem readButtons_keepsInput {t : Tft} (h : t.HasInput) : (readButtons t).2.HasInput := by
  unfold readButtons
  cases hinput : t.input with
  | none => exact h
  | some a => exact h

end Tft

namespace Renderer

open Tft

theorem run_keepsInput {k : Stroke Tft} (hk : Keeps HasInput k.body) : Keeps HasInput k.run := by
  have hmode (mode : DrawMode) : Keeps HasInput (Display.setMode mode : Draw Tft Unit) :=
    Keeps.modify fun _ h => h
  cases k with
  | plain x => exact hk
  | inverted x => exact Keeps.bind (hmode _) fun _ => Keeps.bind hk fun _ => hmode _

variable {content : Content Tft} (hcontent : ∀ row, WritesOnly (content.writeRow row))
include hcontent

theorem redrawText_keepsInput (w : Window) (clear : Bool) :
    Keeps HasInput (redrawText w content clear) := by
  have hcursor (column row : Nat) : Keeps HasInput (Display.setCursor column row : Draw Tft Unit) :=
    Keeps.modify fun _ h => h
  have hrows : Keeps HasInput (w.visibleRows.forM fun row => do
      Display.setCursor 0 (row - w.start)
      Display.write (if row = w.current then ">" else " ")
      Display.setCursor 2 (row - w.start)
      content.writeRow row) := by
    refine Ensures.forM fun row _ => ?_
    refine Keeps.bind (hcursor _ _) fun _ => ?_
    refine Keeps.bind (writesOnly_keeps hasInput_steady (.write _)) fun _ => ?_
    exact Keeps.bind (hcursor _ _) fun _ => writesOnly_keeps hasInput_steady (hcontent row)
  unfold redrawText
  exact Keeps.ite (Keeps.bind (drawing_keeps (clear_keeps hasInput_steady)) fun _ => hrows) hrows

theorem redraw_keepsInput (r : Renderer) (w : Window) (clear : Bool) :
    Keeps HasInput (r.redraw w content clear) := by
  refine Keeps.ite ?_ (Keeps.bind (redrawText_keepsInput hcontent w clear) fun _ => Keeps.pure _)
  rw [redrawFramed_eq_strokes]
  refine Keeps.bind (Ensures.forM fun k hk => ?_) fun _ => Keeps.pure _
  exact run_keepsInput (strokes_keep hasInput_steady hcontent r w clear k hk)

theorem refresh_keepsInput (r : Renderer) (clear : Bool) :
    Keeps (fun s : Window × Tft => s.2.HasInput) (r.refresh content clear) := by
  rintro ⟨w, t⟩ ht
  have hredraw := redraw_keepsInput hcontent r w clear t ht
  unfold refresh
  cases hr : r.redraw w content clear t with
  | ok a t' => simpa [hr] using hredraw
  | error e t' => simpa [hr] using hredraw

end Renderer

namespace Panel

variable {β : Type}

def HasInput (p : Panel Tft β) : Prop := p.lcd.HasInput

theorem poll_keepsInput {p : Panel Tft β} (h : p.HasInput) : p.poll.HasInput :=
  Tft.readSteps_keepsInput (Tft.readButtons_keepsInput h)

section Content

variable {content : Content Tft} (hcontent : ∀ row, WritesOnly (content.writeRow row))
include hcontent

theorem showMenu_keepsInput (clear : Bool) :
    Keeps (fun s : Window × Panel Tft β => s.2.HasInput) (showMenu content clear) := by
  rintro ⟨w, p⟩ hp
  have hrefresh := Renderer.refresh_keepsInput hcontent p.renderer clear (w, p.lcd) hp
  unfold showMenu Action.within Action.failingAs
  cases hr : p.renderer.refresh content clear (w, p.lcd) with
  | ok _ s =>
    simp only [hr] at hrefresh ⊢
    exact hrefresh
  | error _ s =>
    simp only [hr] at hrefresh ⊢
    exact hrefresh

theorem followKnob_keepsInput :
    Keeps (fun s : Window × Panel Tft β => s.2.HasInput) (followKnob content) := by
  rintro ⟨w, p⟩ hp
  unfold followKnob
  by_cases hmoved : (w.move p.events.detents).1 = true
  · simp only [hmoved, if_true]
    exact Keeps.bind (showMenu_keepsInput hcontent false) (fun _ => Keeps.pure _) (_, p) hp
  · simp only [hmoved, Bool.false_eq_true, if_false]
    exact hp

end Content

theorem send_keepsInput [CommandSink β] (text : String) :
    Keeps HasInput (send text : Action Command.QueueError (Panel Tft β) Nat) :=
  Keeps.within (P := fun _ => True) (Ensures.always (fun _ _ => trivial) fun _ _ => trivial)
    (fun _ _ => trivial) fun _ _ h _ => h

end Panel

variable {β : Type}

theorem Page.onWindow_keepsInput {κ α : Type} {get : κ → Window} {put : Window → κ → κ}
    {x : Action PanelError (Window × Panel Tft β) α}
    (hx : Keeps (fun s : Window × Panel Tft β => s.2.HasInput) x) :
    Keeps (fun s : κ × Panel Tft β => s.2.HasInput) (Page.onWindow get put x) :=
  Keeps.within hx (fun _ h => h) fun _ _ _ h => h

namespace MenuPage

theorem content_writesOnly (m : MenuPage) (row : Nat) :
    WritesOnly ((m.content : Content Tft).writeRow row) := by
  simp only [content]
  split
  · exact .write _
  · exact .pure _

theorem enter_keepsInput : Keeps (fun s : MenuPage × Panel Tft β => s.2.HasInput) enter := by
  unfold enter
  refine Keeps.bind (Keeps.modify fun _ h => h) fun _ => ?_
  refine Keeps.get_bind fun s => ?_
  exact Keeps.bind
    (Page.onWindow_keepsInput (Panel.showMenu_keepsInput s.1.content_writesOnly true)) fun _ => Keeps.pure _

theorem choose_keepsInput [CommandSink β] (item : Option MenuItem) :
    Keeps Panel.HasInput (choose item : Action PanelError (Panel Tft β) Transition) := by
  unfold choose
  split
  · exact Keeps.pure _
  split
  · exact Keeps.bind (Ensures.failingAs (Panel.send_keepsInput _)) fun _ => Keeps.pure _
  · exact Keeps.pure _
  · exact Keeps.pure _

theorem tick_keepsInput [CommandSink β] :
    Keeps (fun s : MenuPage × Panel Tft β => s.2.HasInput) tick := by
  unfold tick
  refine Keeps.get_bind fun s => ?_
  refine Keeps.bind
    (Page.onWindow_keepsInput (Panel.followKnob_keepsInput s.1.content_writesOnly)) fun _ => ?_
  refine Keeps.ite (Keeps.pure _) (Keeps.ite ?_ (Keeps.pure _))
  refine Keeps.get_bind fun s => ?_
  exact Keeps.within (choose_keepsInput _) (fun _ h => h) fun _ _ _ h => h

end MenuPage

namespace AboutPage

theorem content_writesOnly (a : AboutPage) (row : Nat) :
    WritesOnly ((a.content : Content Tft).writeRow row) := by
  simp only [content]
  split
  · exact .write _
  · exact .pure _

theorem enter_keepsInput : Keeps (fun s : AboutPage × Panel Tft β => s.2.HasInput) enter := by
  unfold enter
  refine Keeps.bind (Keeps.modify fun _ h => h) fun _ => ?_
  refine Keeps.get_bind fun s => ?_
  exact Keeps.bind
    (Page.onWindow_keepsInput (Panel.showMenu_keepsInput s.1.content_writesOnly true)) fun _ => Keeps.pure _

theorem tick_keepsInput : Keeps (fun s : AboutPage × Panel Tft β => s.2.HasInput) tick := by
  unfold tick
  refine Keeps.get_bind fun s => ?_
  exact Keeps.bind
    (Page.onWindow_keepsInput (Panel.followKnob_keepsInput s.1.content_writesOnly)) fun _ => Keeps.pure _

end AboutPage

namespace AnyPage

/-- A menu or the about page. -/
def Unscripted : AnyPage → Prop
  | .scripted _ => False
  | _ => True

theorem lift_keepsInput {κ α : Type} (wrap : κ → AnyPage) (hwrap : ∀ k, (wrap k).Unscripted) (k : κ)
    {hook : Action PanelError (κ × Panel Tft β) α} (hhook : Keeps (fun s => s.2.HasInput) hook) :
    Keeps (fun s : AnyPage × Panel Tft β => s.1.Unscripted ∧ s.2.HasInput) (lift wrap k hook) :=
  Keeps.within hhook (fun _ h => h.2) fun _ _ _ h => ⟨hwrap _, h⟩

theorem enter_keepsInput :
    Keeps (fun s : AnyPage × Panel Tft β => s.1.Unscripted ∧ s.2.HasInput) enter := by
  refine Ensures.get_bind ?_
  rintro ⟨k, p⟩ hs
  refine Ensures.mono_pre ?_ fun _ h => h ▸ hs
  cases k with
  | menu m => exact lift_keepsInput .menu (fun _ => trivial) m MenuPage.enter_keepsInput
  | about a => exact lift_keepsInput .about (fun _ => trivial) a AboutPage.enter_keepsInput
  | scripted s => exact hs.1.elim

theorem tick_keepsInput [CommandSink β] :
    Keeps (fun s : AnyPage × Panel Tft β => s.1.Unscripted ∧ s.2.HasInput) tick := by
  refine Ensures.get_bind ?_
  rintro ⟨k, p⟩ hs
  refine Ensures.mono_pre ?_ fun _ h => h ▸ hs
  cases k with
  | menu m => exact lift_keepsInput .menu (fun _ => trivial) m MenuPage.tick_keepsInput
  | about a => exact lift_keepsInput .about (fun _ => trivial) a AboutPage.tick_keepsInput
  | scripted s => exact hs.1.elim

end AnyPage

namespace PanelTask

open Navigator (Settled Settles)

/-- No page of the panel is a scripted one. -/
def Unscripted (_ : Nat) (page : Option AnyPage) : Prop := ∀ k ∈ page, k.Unscripted

theorem unscripted_some {i : Nat} {k : AnyPage} : Unscripted i (some k) ↔ k.Unscripted :=
  ⟨fun h => h k rfl, fun h _ hk => Option.some_inj.mp hk ▸ h⟩

theorem settles : Settles (β := CommandQueue) Unscripted Unscripted Panel.HasInput where
  weaken _ _ h := h
  missing _ _ := nofun
  enter _ := by
    simp only [unscripted_some]
    exact AnyPage.enter_keepsInput

/-- The display has its input, and no page is one that could take it away. -/
def Supplied (t : PanelTask) : Prop := Settled Unscripted Unscripted Panel.HasInput (t.pages, t.panel)

variable {t : PanelTask}

theorem Supplied.mapLcd (h : t.Supplied) {f : Tft → Tft} (hf : ∀ lcd, lcd.HasInput → (f lcd).HasInput) :
    (t.mapLcd f).Supplied :=
  ⟨h.1, hf _ h.2⟩

theorem supplied_ofDisplay {lcd : Tft} (h : lcd.HasInput) : (ofDisplay lcd).Supplied :=
  ⟨⟨fun _ => nofun, nofun⟩, h⟩

theorem identify_keepsInput {lcd : Tft} (h : lcd.HasInput) : (identify lcd).2.HasInput :=
  (Tft.readStatus_keeps Tft.hasInput_steady.bus).after
    ((Tft.readIdentification_keeps Tft.hasInput_steady.bus).after h)

theorem unscripted_all (identity : Identity) (i : Nat) : Unscripted i (Pages.all identity).pages[i]? := by
  intro k hk
  have hmem := List.mem_of_getElem? hk
  simp only [Pages.all, List.mem_cons, List.not_mem_nil, or_false] at hmem
  rcases hmem with rfl | rfl | rfl | rfl <;> trivial

theorem openPages_supplied (identity : Identity) {lcd : Tft} (h : lcd.HasInput) (t : PanelTask) :
    (t.openPages identity lcd).2.Supplied :=
  Ensures.after (settles.start Pages.main) ⟨⟨unscripted_all identity, nofun⟩, h⟩

theorem Supplied.start (h : t.Supplied) (s : Settings) : (t.start s).2.Supplied := by
  have hstarted := Keeps.after Tft.start_keepsInput h.2
  unfold PanelTask.start
  dsimp only
  split
  · exact ⟨h.1, hstarted⟩
  · exact openPages_supplied _ (identify_keepsInput hstarted) t

theorem Supplied.run (h : t.Supplied) (s : Settings) : (t.run s).2.Supplied := by
  have htick : Keeps (Settled Unscripted Unscripted Panel.HasInput)
      (Navigator.tick (κ := AnyPage) (σ := Tft) (β := CommandQueue)) :=
    settles.tick (fun _ => Panel.poll_keepsInput) fun _ => by
      simp only [unscripted_some]
      exact AnyPage.tick_keepsInput
  unfold PanelTask.run
  split
  · exact h.start s
  · exact Keeps.after htick h
  · exact h

end PanelTask

namespace Controller

/-- The input that sampler and panel share while the tasks run. -/
def input (c : Controller) : Option InputAccumulator :=
  c.tasks.bind fun t => t.display.panel.lcd.input

def Supplied (c : Controller) : Prop := ∀ t, c.phase = .running t → t.display.Supplied

variable {c : Controller}

theorem Supplied.isSome_input (h : c.Supplied) {t : Tasks} (hphase : c.phase = .running t) :
    c.input.isSome = true := by
  unfold input tasks
  rw [hphase]
  exact (h t hphase).2

theorem supplied_of_eq {d : Controller} (h : d.phase = c.phase) (hc : c.Supplied) : d.Supplied :=
  fun t ht => hc t (h ▸ ht)

theorem supplied_of_running {t : Tasks} (hphase : c.phase = .running t) (h : t.display.Supplied) :
    c.Supplied := by
  intro t' ht'
  rw [hphase] at ht'
  cases ht'
  exact h

theorem Supplied.whileRunning (h : c.Supplied) {f : Tasks → Controller}
    (hf : ∀ t, t.display.Supplied → (f t).Supplied) : (c.whileRunning f).Supplied := by
  unfold Controller.whileRunning
  split
  · rename_i t hphase
    exact hf t (h t hphase)
  · exact h

theorem collect_supplied {t : Tasks} (h : t.display.Supplied) (c : Controller) : (c.collect t).Supplied :=
  supplied_of_running rfl (h.mapLcd fun _ h => h)

theorem startPanel_supplied (c : Controller) : c.startPanel.Supplied := by
  unfold startPanel
  dsimp only
  split
  · have hparked (t : Tasks) : ControllerPhase.parked ≠ .running t := nofun
    exact fun t ht => absurd ht (hparked t)
  · exact supplied_of_eq rfl
      (collect_supplied (PanelTask.supplied_ofDisplay (Tft.atRest_hasInput _ _ _ _ _)) c)

theorem Supplied.start (h : c.Supplied) : c.start.Supplied := by
  unfold Controller.start
  split
  · exact supplied_of_eq rfl c.startBuses.startPanel_supplied
  · exact h

theorem Supplied.beat (h : c.Supplied) : c.beat.Supplied := by
  refine supplied_of_eq ?_ h
  unfold Controller.beat
  cases hphase : c.phase <;> exact hphase

theorem phase_updateFlow (s : Sampler) (c : Controller) : (c.updateFlow s).phase = c.phase := by
  unfold updateFlow
  split <;> rfl

theorem Supplied.runSampler (h : c.Supplied) : c.runSampler.Supplied := by
  refine h.whileRunning fun t ht => ?_
  split
  · exact supplied_of_eq (phase_updateFlow _ _)
      (supplied_of_running rfl (ht.mapLcd fun _ => Tft.publish_hasInput _ _))
  · exact supplied_of_running rfl ht

theorem Supplied.runPanel (h : c.Supplied) : c.runPanel.Supplied :=
  h.whileRunning fun _ ht => supplied_of_eq rfl (collect_supplied (ht.run c.settings) c)

theorem Supplied.runExecutor (h : c.Supplied) : c.runExecutor.Supplied := by
  refine h.whileRunning fun t ht => ?_
  split
  · exact supplied_of_running rfl ht
  · exact supplied_of_running rfl ht

theorem Supplied.onSerial (h : c.Supplied) (f : SerialBus → SerialBus) : (c.onSerial f).Supplied := by
  unfold Controller.onSerial
  split
  · rename_i t hphase
    exact supplied_of_running rfl ((h t hphase).mapLcd fun _ h => h)
  · exact h

end Controller

end FrontPanel
