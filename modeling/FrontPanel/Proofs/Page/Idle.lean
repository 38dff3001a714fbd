import FrontPanel.Proofs.Page.Highlight

/-!
# Idle ticks are free

A tick in which no button goes down and the knob does not move the highlight leaves everything as it is but
what the controls were read out to be. That no highlight moves without need rests on the windows of the open
pages, which fit their rows from being entered on, whatever else has failed since.
-/

namespace FrontPanel

set_option autoImplicit false

open FrontPanel.Action (Ensures bind_of_ok)

namespace Window

/-- The knob has not turned, or beyond the end of the rows that the highlight is at. -/
def Rests (w : Window) (detents : Int) : Prop :=
  detents = 0 ∨ 0 < detents ∧ w.rows ≤ w.current + 1 ∨ detents < 0 ∧ w.current = 0

theorem InBounds.rests_iff {w : Window} (h : w.InBounds) (detents : Int) :
    w.Rests detents ↔ (w.move detents).1 = false := by
  have hlt := h.current_lt
  have heq := h.current_eq
  have hcurrent := current_move h detents
  have hmoved := w.move_moved_iff detents
  have hstill : (w.move detents).1 = false ↔ (w.move detents).2.current = w.current := by
    rw [← Bool.not_eq_true, hmoved, not_not]
  rw [hstill]
  unfold Rests
  unfold Number.clamp at hcurrent
  omega

end Window

variable {σ β : Type}

theorem Panel.followKnob_of_rests [Display σ] (content : Content σ) {w : Window} (hw : w.Sound)
    {p : Panel σ β} (hrests : w.Rests p.events.detents) : followKnob content (w, p) = .ok () (w, p) := by
  have hstill := (hw.bounds.rests_iff _).mp hrests
  unfold followKnob
  simp only [hstill, Window.move_of_still hw hstill, Bool.false_eq_true, if_false]

/-- A kind of page with a window that fits from being entered on and follows the knob in a tick. A tick without
a press does nothing else. -/
structure Listing (κ σ β : Type) [Display σ] [Page κ σ β] where
  window : κ → Window
  entered : ∀ (k : κ) (p : Panel σ β), (window ((Page.enter (κ := κ)).after (k, p)).1).Restored
  ticked : ∀ (k : κ) (p : Panel σ β),
    window ((Page.tick (κ := κ)).after (k, p)).1 = (window k).followed p.events.detents
  idle : ∀ (k : κ) (p : Panel σ β), (window k).Sound → ¬ p.events.Pressed →
    (window k).Rests p.events.detents → Page.tick (k, p) = .ok .stay (k, p)

theorem PanelEvents.not_pressed {e : PanelEvents} (h : ¬ e.Pressed) :
    e.clicked = false ∧ e.back = false :=
  ⟨Bool.eq_false_iff.mpr fun hclicked => h (Or.inl hclicked),
    Bool.eq_false_iff.mpr fun hback => h (Or.inr hback)⟩

theorem Page.onWindow_of_ok {κ α : Type} {get : κ → Window} {put : Window → κ → κ} {k : κ}
    (hput : put (get k) k = k) {x : Action PanelError (Window × Panel σ β) α} {p : Panel σ β} {a : α}
    (h : x (get k, p) = .ok a (get k, p)) : Page.onWindow get put x (k, p) = .ok a (k, p) := by
  unfold Page.onWindow Action.within
  simp only [h, hput]

namespace MenuPage

variable [Display σ] [CommandSink β]

theorem tick_of_rests {m : MenuPage} {p : Panel σ β} (hw : m.window.Sound)
    (hpressed : ¬ p.events.Pressed) (hrests : m.window.Rests p.events.detents) :
    tick (m, p) = .ok .stay (m, p) := by
  obtain ⟨hclicked, hback⟩ := PanelEvents.not_pressed hpressed
  have hfollow : onWindow (Panel.followKnob m.content) (m, p) = .ok () (m, p) :=
    Page.onWindow_of_ok rfl (Panel.followKnob_of_rests m.content hw hrests)
  unfold tick
  refine (bind_of_ok (t := (m, p)) rfl).trans ((bind_of_ok hfollow).trans ?_)
  rw [hback, hclicked]
  rfl

def listing : Listing MenuPage σ β where
  window := MenuPage.window
  entered m p := by
    change (enter.after (m, p)).1.window.Restored
    rw [after_enter]
    exact m.enteredWindow_restored p
  ticked m p := by
    change (tick.after (m, p)).1.window = _
    rw [after_tick]
  idle _ _ := tick_of_rests

end MenuPage

namespace AboutPage

variable [Display σ]

theorem tick_of_rests {a : AboutPage} {p : Panel σ β} (hw : a.window.Sound)
    (hpressed : ¬ p.events.Pressed) (hrests : a.window.Rests p.events.detents) :
    tick (a, p) = .ok .stay (a, p) := by
  obtain ⟨hclicked, hback⟩ := PanelEvents.not_pressed hpressed
  have hfollow : onWindow (Panel.followKnob a.content) (a, p) = .ok () (a, p) :=
    Page.onWindow_of_ok rfl (Panel.followKnob_of_rests a.content hw hrests)
  unfold tick
  refine (bind_of_ok (t := (a, p)) rfl).trans ((bind_of_ok hfollow).trans ?_)
  rw [hclicked, hback]
  rfl

def listing : Listing AboutPage σ β where
  window := AboutPage.window
  entered a p := by
    have hrows : a.makeLines.length < 65536 := a.length_makeLines_le.trans_lt (by decide)
    have hnew : (p.windowFor a.makeLines.length).Sound :=
      ⟨hrows, Window.ofRows_inBounds _ _, Window.ofRows_inBounds _ _, fun _ => rfl⟩
    change (enter.after (a, p)).1.window.Restored
    rw [after_enter]
    exact hnew.restored
  ticked a p := by
    change (tick.after (a, p)).1.window = _
    rw [after_tick]
  idle _ _ := tick_of_rests

end AboutPage

/-- Pages of type `κ'` among those of type `κ`. Their hooks are the ones that they have by themselves, and the
hooks of no other page make it one of them. -/
structure PagesAmong (κ' κ σ β : Type) [Page κ' σ β] [Page κ σ β] where
  wrap : κ' → κ
  find : κ → Option κ'
  find_eq_some_iff : ∀ k k', find k = some k' ↔ k = wrap k'
  enter : ∀ (k' : κ') (p : Panel σ β), Page.enter (wrap k', p) =
    ((Page.enter (κ := κ')).within (fun s : κ × Panel σ β => (k', s.2)) fun s _ => (wrap s.1, s.2))
      (wrap k', p)
  tick : ∀ (k' : κ') (p : Panel σ β), Page.tick (wrap k', p) =
    ((Page.tick (κ := κ')).within (fun s : κ × Panel σ β => (k', s.2)) fun s _ => (wrap s.1, s.2))
      (wrap k', p)
  enter_other : ∀ (k : κ) (p : Panel σ β), find k = none →
    find ((Page.enter (κ := κ)).after (k, p)).1 = none
  tick_other : ∀ (k : κ) (p : Panel σ β), find k = none →
    find ((Page.tick (κ := κ)).after (k, p)).1 = none

namespace PagesAmong

variable {κ κ' : Type} [Display σ] [Page κ' σ β] [Page κ σ β]

/-- If the page is one of those, its window fits and counts as drawn. -/
def Fits (V : PagesAmong κ' κ σ β) (L : Listing κ' σ β) (k : κ) : Prop :=
  ∀ k' ∈ V.find k, (L.window k').Restored

variable (V : PagesAmong κ' κ σ β) (L : Listing κ' σ β)

theorem fits_wrap {k' : κ'} (h : (L.window k').Restored) : V.Fits L (V.wrap k') := by
  intro other hother
  rw [(V.find_eq_some_iff _ k').mpr rfl] at hother
  exact Option.some.inj hother ▸ h

theorem fits_after_enter (k : κ) (p : Panel σ β) :
    V.Fits L ((Page.enter (κ := κ)).after (k, p)).1 := by
  cases hk : V.find k with
  | none =>
    rw [Fits, V.enter_other k p hk]
    exact nofun
  | some k' =>
    obtain rfl := (V.find_eq_some_iff k k').mp hk
    rw [Action.after_of_eq (V.enter k' p), Action.after_within]
    exact V.fits_wrap L (L.entered k' p)

theorem fits_after_tick (k : κ) (p : Panel σ β) (h : V.Fits L k) :
    V.Fits L ((Page.tick (κ := κ)).after (k, p)).1 := by
  cases hk : V.find k with
  | none =>
    rw [Fits, V.tick_other k p hk]
    exact nofun
  | some k' =>
    obtain rfl := (V.find_eq_some_iff k k').mp hk
    rw [Action.after_of_eq (V.tick k' p), Action.after_within]
    have hticked := (h k' hk).followed p.events.detents
    rw [← L.ticked k' p] at hticked
    exact V.fits_wrap L hticked

theorem tick_of_rests {k : κ} {k' : κ'} (hk : V.find k = some k') {p : Panel σ β}
    (hw : (L.window k').Sound) (hpressed : ¬ p.events.Pressed)
    (hrests : (L.window k').Rests p.events.detents) : Page.tick (k, p) = .ok .stay (k, p) := by
  obtain rfl := (V.find_eq_some_iff k k').mp hk
  rw [V.tick k' p]
  unfold Action.within
  simp only [L.idle k' p hw hpressed hrests]

end PagesAmong

namespace AnyPage

def asAbout : AnyPage → Option AboutPage
  | .about a => some a
  | _ => none

variable (σ β : Type) [Display σ] [CommandSink β]

def menuPages : PagesAmong MenuPage AnyPage σ β where
  wrap := .menu
  find := asMenu
  find_eq_some_iff k m := by cases k <;> simp [asMenu]
  enter _ _ := rfl
  tick _ _ := rfl
  enter_other k p hk := by
    cases k with
    | menu m => cases hk
    | about a => exact congrArg asMenu (fst_after_lift .about a AboutPage.enter (.about a, p))
    | scripted s => exact congrArg asMenu (fst_after_lift .scripted s ScriptedPage.enter (.scripted s, p))
  tick_other k p hk := by
    cases k with
    | menu m => cases hk
    | about a => exact congrArg asMenu (fst_after_lift .about a AboutPage.tick (.about a, p))
    | scripted s => exact congrArg asMenu (fst_after_lift .scripted s ScriptedPage.tick (.scripted s, p))

def aboutPages : PagesAmong AboutPage AnyPage σ β where
  wrap := .about
  find := asAbout
  find_eq_some_iff k a := by cases k <;> simp [asAbout]
  enter _ _ := rfl
  tick _ _ := rfl
  enter_other k p hk := by
    cases k with
    | menu m => exact congrArg asAbout (fst_after_lift .menu m MenuPage.enter (.menu m, p))
    | about a => cases hk
    | scripted s => exact congrArg asAbout (fst_after_lift .scripted s ScriptedPage.enter (.scripted s, p))
  tick_other k p hk := by
    cases k with
    | menu m => exact congrArg asAbout (fst_after_lift .menu m MenuPage.tick (.menu m, p))
    | about a => cases hk
    | scripted s => exact congrArg asAbout (fst_after_lift .scripted s ScriptedPage.tick (.scripted s, p))

end AnyPage

/-- Reading the controls is no call that a recorder records. -/
theorem Panel.calls_poll (p : Panel Recorder β) : p.poll.lcd.calls = p.lcd.calls := rfl

namespace Navigator

variable {κ κ' : Type} [Display σ] [Page κ' σ β] [Page κ σ β]

/-- A page that stays as it is and asks for nothing leaves the navigator and the polled panel. -/
theorem tick_of_stay {n : Navigator κ} {p : Panel σ β} {page : Nat} {k : κ}
    (hactive : n.active = some page) (hpage : n.pages[page]? = some k)
    (hstay : Page.tick (k, p.poll) = .ok .stay (k, p.poll)) :
    tick (n, p) = .ok .stay (n, p.poll) := by
  obtain ⟨hlt, hk⟩ := List.getElem?_eq_some_iff.mp hpage
  have hsame : n.pages.set page k = n.pages := by rw [← hk, List.set_getElem_self]
  have hhook : onPage page Page.tick .stay (n, p.poll) = .ok .stay (n, p.poll) := by
    simp only [onPage, hpage, Action.within, hstay, hsame]
  unfold tick
  refine (bind_of_ok (t := (n, p)) rfl).trans ?_
  simp only [hactive]
  exact (bind_of_ok (t := (n, p.poll)) rfl).trans (bind_of_ok hhook)

theorem Journey.idle_of_run (V : PagesAmong κ' κ σ β) (L : Listing κ' σ β) (p : Panel σ β)
    (steps : List (Step κ σ β)) {page : Nat} {k : κ} {k' : κ'} :
    let j := steps.foldl Journey.step (⟨{}, p, none⟩ : Journey κ σ β)
    j.nav.active = some page → j.nav.pages[page]? = some k → V.find k = some k' →
      ¬ j.panel.poll.events.Pressed → (L.window k').Rests j.panel.poll.events.detents →
      tick (j.nav, j.panel) = .ok .stay (j.nav, j.panel.poll) := by
  intro j hactive hpage hk hpressed hrests
  have hempty : Journey.Opened (V.Fits L) (⟨{}, p, none⟩ : Journey κ σ β) :=
    ⟨⟨fun _ => trivial, nofun⟩, trivial⟩
  have hopened : j.Opened (V.Fits L) := Journey.opened_of_run (V.fits_after_enter L)
    (V.fits_after_tick L) hempty Sound.empty steps
  have hfits : V.Fits L k := hopened.1.opened page (List.mem_of_head? hactive) k hpage
  exact tick_of_stay hactive hpage (V.tick_of_rests L hk (hfits k' hk).sound hpressed hrests)

/-- After any run, on any display: a tick that finds neither button newly down, and the knob not turned by a
whole detent or turned beyond the end that the highlight is at, stays on a menu or about page, whatever other
pages there are. The pages with their windows, the stack and the commands are as before, and the display has
been read out once and not been asked for anything else. -/
theorem idle_tick_of_run [CommandSink β] (menus : PagesAmong MenuPage κ σ β)
    (abouts : PagesAmong AboutPage κ σ β) (p : Panel σ β) (steps : List (Step κ σ β)) :
    let j := steps.foldl Journey.step (⟨{}, p, none⟩ : Journey κ σ β)
    ∀ (page : Nat) (k : κ) (w : Window), j.nav.active = some page → j.nav.pages[page]? = some k →
      ((∃ m, menus.find k = some m ∧ m.window = w) ∨ ∃ a, abouts.find k = some a ∧ a.window = w) →
      let pressed := (Display.readButtons j.panel.lcd).1.pressedSince j.panel.tracker.lastButtons
      let detents := j.panel.poll.events.detents
      pressed.holds .select = false → pressed.holds .pause = false →
      (detents = 0 ∨ 0 < detents ∧ w.rows ≤ w.current + 1 ∨ detents < 0 ∧ w.current = 0) →
      tick (j.nav, j.panel) = .ok .stay (j.nav, j.panel.poll) ∧
        j.panel.poll.lcd = (Display.readSteps (Display.readButtons j.panel.lcd).2).2 ∧
        j.panel.poll.commands = j.panel.commands := by
  intro j page k w hactive hpage hk pressed detents hselect hpause hrests
  have hpressed : ¬ j.panel.poll.events.Pressed := by
    rintro (hclicked | hback)
    · exact Bool.false_ne_true (hselect.symm.trans hclicked)
    · exact Bool.false_ne_true (hpause.symm.trans hback)
  refine ⟨?_, rfl, rfl⟩
  rcases hk with ⟨m, hm, rfl⟩ | ⟨a, ha, rfl⟩
  · exact Journey.idle_of_run menus MenuPage.listing p steps hactive hpage hm hpressed hrests
  · exact Journey.idle_of_run abouts AboutPage.listing p steps hactive hpage ha hpressed hrests

/-- The knob has turned to the second of two entries, and then turns on by two detents. -/
def turnedPastEnd : List (Step AnyPage Recorder CommandQueue) :=
  PanelSession.twoMenus.map .add ++
    [.start 0, .panel fun p => { p with lcd := p.lcd.feed 0 4 }, .tick,
      .panel fun p => { p with lcd := p.lcd.feed 0 8 }]

theorem idle_tick_past_end :
    let p := Panel.ofDisplay PanelSession.fourLines ({ capacity := 2 } : CommandQueue)
    let j := turnedPastEnd.foldl Journey.step ⟨{}, p, none⟩
    j.panel.poll.events.detents = 2 ∧ tick (j.nav, j.panel) = .ok .stay (j.nav, j.panel.poll) ∧
      j.panel.poll.lcd.calls = j.panel.lcd.calls := by
  intro p j
  have hdetents : j.panel.poll.events.detents = 2 := by decide +kernel
  have hactive : j.nav.active = some 0 := by decide +kernel
  have hlast : (j.nav.pages[0]?.bind AnyPage.asMenu).any
      (fun m => m.window.rows ≤ m.window.current + 1) = true := by decide +kernel
  obtain ⟨m, hmenu, hend⟩ := (Option.any_eq_true _ _).mp hlast
  obtain ⟨k, hpage, hm⟩ := Option.bind_eq_some_iff.mp hmenu
  have hpos : 0 < j.panel.poll.events.detents := by
    rw [hdetents]
    decide
  have hidle := idle_tick_of_run (AnyPage.menuPages Recorder CommandQueue)
    (AnyPage.aboutPages Recorder CommandQueue) p turnedPastEnd 0 k m.window hactive hpage
    (Or.inl ⟨m, hm, rfl⟩) (by decide +kernel) (by decide +kernel)
    (Or.inr (Or.inl ⟨hpos, of_decide_eq_true hend⟩))
  exact ⟨hdetents, hidle.1, Panel.calls_poll j.panel⟩

end Navigator

end FrontPanel
