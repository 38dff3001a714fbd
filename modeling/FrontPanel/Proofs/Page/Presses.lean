import FrontPanel.Display.Recorder
import FrontPanel.Proofs.Page.Hooks
import FrontPanel.Proofs.Page.Settled

/-!
# One press, one action

A button acts once, when it goes down, and on the page that is at the top at that moment. Whatever fails,
a tick passes on one text at most, and a button that is held while pages change does nothing on the pages
that come up.
-/

namespace FrontPanel

set_option autoImplicit false

open FrontPanel.Action (Ensures Keeps bind_of_ok)

/-- A place for commands that remembers every text passed to it, also those that it refused. -/
structure Outbox (β : Type) where
  inner : β
  passed : List String := []

instance {β : Type} [CommandSink β] : CommandSink (Outbox β) where
  send text :=
    (CommandSink.send text).within Outbox.inner fun inner o => ⟨inner, o.passed ++ [text]⟩

theorem Panel.Sends.passed {σ β : Type} [CommandSink β] {text : String} {p q : Panel σ (Outbox β)}
    (h : p.Sends text q) : q.commands.passed = p.commands.passed ++ [text] := by
  obtain ⟨lcd, rfl⟩ := h
  change ((CommandSink.send text).after p.commands).passed = _
  simp only [CommandSink.send, Action.after_within]

namespace Navigator

variable {σ β : Type}

/-- Every open page has been entered. -/
structure Tended (n : Navigator AnyPage) : Prop where
  plain : ∀ k ∈ n.pages, k.Plain
  opened : ∀ page ∈ n.stack, ∀ k, n.pages[page]? = some k → k.Open

/-- The text is what the active page sends on these events. -/
def Commands (n : Navigator AnyPage) (e : PanelEvents) (text : String) : Prop :=
  ∃ page k, n.active = some page ∧ n.pages[page]? = some k ∧ k.Commands e text

theorem Commands.menu {n : Navigator AnyPage} {e : PanelEvents} {text : String}
    (h : n.Commands e text) :
    (∃ page m, n.active = some page ∧ n.pages[page]? = some (.menu m) ∧
        ∃ item, m.items[m.target e.detents]? = some item ∧ item.action = .command text) ∧
      e.clicked = true ∧ e.back = false := by
  obtain ⟨page, k, hactive, hpage, hk⟩ := h
  cases k with
  | menu m =>
    obtain ⟨hclicked, hback, hitem⟩ := hk
    exact ⟨⟨page, m, hactive, hpage, hitem⟩, hclicked, hback⟩
  | about a => exact hk.elim
  | scripted s => exact hk.elim

theorem tended_iff {n : Navigator AnyPage} :
    n.Tended ↔ Holds (fun _ o => ∀ k ∈ o, k.Plain) (fun _ o => ∀ k ∈ o, k.Open) n.stack n := by
  refine ⟨fun h => ⟨fun i k hk => ?_, h.opened⟩, fun h => ⟨fun k hk => ?_, h.opened⟩⟩
  · exact h.plain k (List.mem_of_getElem? hk)
  · obtain ⟨i, hi⟩ := List.mem_iff_getElem?.mp hk
    exact h.all i k hi

theorem Tended.set {n : Navigator AnyPage} (hn : n.Tended) {page : Nat} {old k : AnyPage}
    (hpage : n.pages[page]? = some old) (hk : k.Open) :
    Tended { n with pages := n.pages.set page k } := by
  have h := tended_iff.mp hn
  exact tended_iff.mpr (.set hpage (fun _ _ hopen k hk => (hopen k hk).plain) (fun i _ => h.all i)
    (fun i hi _ => h.opened i hi) fun _ hmem => Option.some.inj hmem ▸ hk)

/-- The pages are tended, and since `q` nothing but the display has changed. -/
def Led (q : Panel σ β) (s : Navigator AnyPage × Panel σ β) : Prop := s.1.Tended ∧ q.Draws s.2

theorem led_eq (q : Panel σ β) :
    Led q = Settled (fun _ o => ∀ k ∈ o, k.Plain) (fun _ o => ∀ k ∈ o, k.Open) q.Draws :=
  funext fun _ => propext (and_congr_left' tended_iff)

variable [Display σ] [CommandSink β] {q : Panel σ β}

theorem open_settles (q : Panel σ β) :
    Settles (fun _ o => ∀ k ∈ o, k.Plain) (fun _ o => ∀ k ∈ o, AnyPage.Open k) q.Draws where
  weaken _ _ h k hk := (h k hk).plain
  missing _ _ k hk := by cases hk
  enter i := by
    rintro ⟨k, p⟩ ⟨hplain, hdraws⟩
    have hentered : ∀ s : AnyPage × Panel σ β, s.1.Open ∧ p.Draws s.2 →
        (∀ k ∈ some s.1, k.Open) ∧ q.Draws s.2 := fun s hs =>
      ⟨fun _ hk => Option.some.inj hk ▸ hs.1, hdraws.trans hs.2⟩
    exact (AnyPage.enter_draws (hplain k rfl) p).mono (fun _ h => h) (fun _ => hentered)
      (fun _ => hentered) _ rfl

theorem start_led (page : Nat) : Keeps (Led q) (start (κ := AnyPage) page) := by
  rw [led_eq]
  exact (open_settles q).start page

theorem follow_led (answer : Transition) : Keeps (Led q) (follow (κ := AnyPage) answer) := by
  rw [led_eq]
  exact (open_settles q).follow answer

/-- The events `e` of the tick, and what it has done: on a press, pages were opened or closed; otherwise
the stack is the same, and one text may have been sent, which is what the active page sends. -/
structure Ticked (n : Navigator AnyPage) (p : Panel σ β) (s : Navigator AnyPage × Panel σ β) :
    Prop where
  tended : s.1.Tended
  done : s.1.stack = n.stack ∧ p.Reacts (n.Commands p.events) s.2 .stay ∨
    p.events.Pressed ∧ p.Draws s.2

theorem onPage_tick_reacts {n : Navigator AnyPage} (hn : n.Tended) (p : Panel σ β) {page : Nat}
    (hactive : n.active = some page) :
    let Reacted (answer : Transition) (s : Navigator AnyPage × Panel σ β) :=
      s.1.Tended ∧ s.1.stack = n.stack ∧ p.Reacts (n.Commands p.events) s.2 answer
    Ensures (· = (n, p)) (onPage page Page.tick .stay) Reacted fun _ => Reacted .stay := by
  intro Reacted
  cases hpage : n.pages[page]? with
  | none =>
    rintro _ rfl
    simp only [onPage, hpage]
    exact ⟨hn, rfl, .stays (Panel.Draws.refl p)⟩
  | some k =>
    have hopen : k.Open := hn.opened page (List.mem_of_head? hactive) k hpage
    have hreacted : ∀ answer (s : AnyPage × Panel σ β),
        s.1.Open ∧ p.Reacts (k.Commands p.events) s.2 answer →
          Reacted answer ({ n with pages := n.pages.set page s.1 }, s.2) := fun answer s hs =>
      ⟨hn.set hpage hs.1, rfl, hs.2.mono fun _ h => ⟨page, k, hactive, hpage, h⟩⟩
    refine onPage_ensures hpage ?_
    exact (AnyPage.tick_reacts hopen p).mono (fun _ h => h) hreacted fun _ => hreacted .stay

omit [Display σ] in
theorem Ticked.tracker {n : Navigator AnyPage} {p : Panel σ β} {s : Navigator AnyPage × Panel σ β}
    (h : Ticked n p s) : s.2.tracker = p.tracker := by
  rcases h.done with ⟨_, hreacts⟩ | ⟨_, hdraws⟩
  · exact hreacts.tracker
  · exact hdraws.tracker

theorem follow_ticked {n : Navigator AnyPage} {p : Panel σ β} {s : Navigator AnyPage × Panel σ β}
    {answer : Transition} (htended : s.1.Tended) (hstack : s.1.stack = n.stack)
    (hreacts : p.Reacts (n.Commands p.events) s.2 answer) :
    Ensures (· = s) (follow (κ := AnyPage) answer)
      (fun _ t => Ticked n p t ∧ (answer ≠ .stay → p.events.Pressed)) fun _ => Ticked n p := by
  by_cases hstay : answer = .stay
  · subst hstay
    refine Ensures.pure ?_
    rintro _ rfl
    exact ⟨⟨htended, Or.inl ⟨hstack, hreacts⟩⟩, fun h => absurd rfl h⟩
  · -- a page that asks for a move has sent nothing, so opening or closing a page is all that is done
    obtain ⟨hpressed, hdraws⟩ := hreacts.of_ne_stay hstay
    have hmoved : ∀ t, Led p t → Ticked n p t := fun t ht => ⟨ht.1, Or.inr ⟨hpressed, ht.2⟩⟩
    exact (follow_led (q := p) answer).mono (fun t ht => ht ▸ ⟨htended, hdraws⟩)
      (fun _ t ht => ⟨hmoved t ht, fun _ => hpressed⟩) fun _ => hmoved

theorem tick_ticked {n : Navigator AnyPage} (hn : n.Tended) (p : Panel σ β) {page : Nat}
    (hactive : n.active = some page) :
    Ensures (· = (n, p)) (tick (κ := AnyPage))
      (fun answer s => Ticked n p.poll s ∧ (answer ≠ .stay → p.poll.events.Pressed))
      fun _ => Ticked n p.poll := by
  unfold tick
  refine Ensures.get_bind ?_
  rintro _ rfl
  simp only [hactive]
  refine Ensures.bind (Q := fun _ s => s = (n, p.poll))
    (Ensures.modified fun s hs => by rw [hs]) fun _ => ?_
  have hrefused : ∀ s : Navigator AnyPage × Panel σ β, s.1.Tended ∧ s.1.stack = n.stack ∧
      p.poll.Reacts (n.Commands p.poll.events) s.2 .stay → Ticked n p.poll s :=
    fun s hs => ⟨hs.1, Or.inl hs.2⟩
  refine Ensures.bind ((onPage_tick_reacts hn p.poll hactive).mono_error fun _ => hrefused)
    fun answer => ?_
  refine Ensures.bind (Ensures.of_forall_eq fun s hs => follow_ticked hs.1 hs.2.1 hs.2.2) fun _ => ?_
  exact Ensures.pure fun _ h => h

end Navigator

namespace ButtonMask

theorem holds_twoPow (mask : ButtonMask) {i : Nat} (hi : i < 8) :
    mask.holds (BitVec.twoPow 8 i) = mask.getLsbD i := by
  unfold holds
  rw [BitVec.and_twoPow]
  cases hbit : mask.getLsbD i with
  | true => simp
  | false =>
    have hne : ¬ 0#8 = BitVec.twoPow 8 i := by
      intro heq
      have hget := congrArg (fun v => v.getLsbD i) heq
      simp [hi] at hget
    simp [hne]

/-- Of a single button, the mask of what was pressed tells whether it is down now and was not before. -/
theorem pressedSince_holds (mask before : ButtonMask) {i : Nat} (hi : i < 8) :
    (mask.pressedSince before).holds (BitVec.twoPow 8 i) =
      (mask.holds (BitVec.twoPow 8 i) && !before.holds (BitVec.twoPow 8 i)) := by
  rw [holds_twoPow _ hi, holds_twoPow _ hi, holds_twoPow _ hi]
  simp [pressedSince, hi]

theorem select_eq : select = BitVec.twoPow 8 0 := rfl

theorem pause_eq : pause = BitVec.twoPow 8 5 := rfl

end ButtonMask

/-- A tick, a start at a page, or any change of the display, its controls and the place for commands. -/
inductive PanelStep (σ β : Type) where
  | start (page : Nat)
  | tick
  | outside (lcd : σ → σ) (commands : β → β)

structure PanelSession (σ β : Type) where
  nav : Navigator AnyPage
  panel : Panel σ (Outbox β)
  /-- The buttons that were sampled last. -/
  lastButtons : ButtonMask := 0

namespace PanelSession

variable {σ β : Type} [Display σ]

def ofPages (lcd : σ) (commands : β) (pages : List AnyPage) : PanelSession σ β where
  nav := { pages := pages }
  panel := Panel.ofDisplay lcd { inner := commands }

/-- The buttons as they are now. -/
def buttons (s : PanelSession σ β) : ButtonMask := (Display.readButtons s.panel.lcd).1

/-- The button is down now and was not in the sample before. -/
def presses (button : ButtonMask) (s : PanelSession σ β) : Bool :=
  s.buttons.holds button && !s.lastButtons.holds button

/-- The detents of a tick at this moment. -/
def detents (s : PanelSession σ β) : Int := s.panel.poll.events.detents

omit [Display σ] in
def texts (s : PanelSession σ β) : List String := s.panel.commands.passed

variable [CommandSink β]

def step (s : PanelSession σ β) : PanelStep σ β → PanelSession σ β
  | .start page =>
    let t := (Navigator.start page).after (s.nav, s.panel)
    { s with nav := t.1, panel := t.2 }
  | .tick =>
    let t := Navigator.tick.after (s.nav, s.panel)
    { nav := t.1
      panel := t.2
      lastButtons := if s.nav.active = none then s.lastButtons else s.buttons }
  | .outside lcd commands =>
    { s with
      panel := { s.panel with
        lcd := lcd s.panel.lcd
        commands := { s.panel.commands with inner := commands s.panel.commands.inner } } }

def run (s : PanelSession σ β) (steps : List (PanelStep σ β)) : PanelSession σ β :=
  steps.foldl step s

/-- Every tick of the run begins with `P`. -/
def Throughout (P : PanelSession σ β → Prop) : PanelSession σ β → List (PanelStep σ β) → Prop
  | _, [] => True
  | s, a :: rest => (a = .tick → P s) ∧ Throughout P (s.step a) rest

structure Sound (s : PanelSession σ β) : Prop where
  tended : s.nav.Tended
  lastButtons : s.panel.tracker.lastButtons = s.lastButtons

omit [CommandSink β] in
theorem Sound.clicked {s : PanelSession σ β} (hs : s.Sound) :
    s.panel.poll.events.clicked = s.presses .select := by
  change (s.buttons.pressedSince s.panel.tracker.lastButtons).holds .select = _
  rw [hs.lastButtons, ButtonMask.select_eq, ButtonMask.pressedSince_holds _ _ (by omega)]
  rfl

omit [CommandSink β] in
theorem Sound.back {s : PanelSession σ β} (hs : s.Sound) :
    s.panel.poll.events.back = s.presses .pause := by
  change (s.buttons.pressedSince s.panel.tracker.lastButtons).holds .pause = _
  rw [hs.lastButtons, ButtonMask.pause_eq, ButtonMask.pressedSince_holds _ _ (by omega)]
  rfl

omit [CommandSink β] in
theorem ofPages_sound (lcd : σ) (commands : β) {pages : List AnyPage}
    (hpages : ∀ k ∈ pages, k.Plain) : (ofPages lcd commands pages).Sound where
  tended := ⟨hpages, fun _ hpage => by cases hpage⟩
  lastButtons := rfl

section Steps

variable {s : PanelSession σ β}

theorem Sound.start (hs : s.Sound) (page : Nat) :
    (s.step (.start page)).Sound ∧ (s.step (.start page)).texts = s.texts := by
  have hled : Navigator.Led s.panel ((Navigator.start page).after (s.nav, s.panel)) :=
    (Navigator.start_led page).after ⟨hs.tended, Panel.Draws.refl _⟩
  obtain ⟨htended, lcd, hlcd⟩ := hled
  refine ⟨⟨htended, ?_⟩, ?_⟩
  · simp only [step, hlcd, hs.lastButtons]
  · simp only [step, texts, hlcd]

/-- What the tick passed on, and what a change of the stack or an answer tells about the buttons. -/
theorem Sound.tick (hs : s.Sound) :
    let t := s.step .tick
    let pressed := s.presses .select = true ∨ s.presses .pause = true
    t.Sound ∧
      (t.texts = s.texts ∧ (t.nav.stack ≠ s.nav.stack → pressed) ∨
        ∃ text, s.nav.Commands s.panel.poll.events text ∧ t.texts = s.texts ++ [text] ∧
          t.nav.stack = s.nav.stack) ∧
      ∀ answer, (Navigator.tick (κ := AnyPage)).outcome (s.nav, s.panel) = .ok answer →
        answer ≠ .stay → pressed := by
  intro t pressed
  cases hactive : s.nav.active with
  | none =>
    have hrun : Navigator.tick (s.nav, s.panel) = .ok .stay (s.nav, s.panel) :=
      Navigator.tick_of_none hactive
    have ht : t = s := by
      simp only [t, step, Action.after, hrun, hactive, if_pos]
    refine ⟨ht ▸ hs, Or.inl ⟨by rw [ht], fun hne => absurd (by rw [ht]) hne⟩, ?_⟩
    intro answer hanswer hne
    simp only [Action.outcome, hrun] at hanswer
    cases hanswer
    exact absurd rfl hne
  | some page =>
    have htick := Navigator.tick_ticked hs.tended s.panel hactive
    have hticked : Navigator.Ticked s.nav s.panel.poll (t.nav, t.panel) :=
      (htick.mono_post fun _ _ h => h.1).after rfl
    have hbuttons : t.lastButtons = s.buttons := by simp [t, step, hactive]
    have hpressed : s.panel.poll.events.Pressed → pressed := by
      unfold PanelEvents.Pressed
      rw [hs.clicked, hs.back]
      exact id
    refine ⟨⟨hticked.tended, ?_⟩, ?_, ?_⟩
    · rw [hbuttons]
      exact congrArg DetentTracker.lastButtons hticked.tracker
    · rcases hticked.done with ⟨hstack, hreacts⟩ | ⟨hevents, hdraws⟩
      · cases hreacts with
        | stays draws => exact Or.inl ⟨congrArg Outbox.passed draws.commands, absurd hstack⟩
        | moves _ draws => exact Or.inl ⟨congrArg Outbox.passed draws.commands, absurd hstack⟩
        | sends allowed passed => exact Or.inr ⟨_, allowed, passed.passed, hstack⟩
      · exact Or.inl ⟨congrArg Outbox.passed hdraws.commands, fun _ => hpressed hevents⟩
    · intro answer hanswer hne
      cases hrun : (Navigator.tick (κ := AnyPage)) (s.nav, s.panel) with
      | ok a u =>
        simp only [Action.outcome, hrun, Except.ok.injEq] at hanswer
        exact hpressed ((htick.of_ok rfl hrun).2 (hanswer ▸ hne))
      | error e u =>
        simp only [Action.outcome, hrun] at hanswer
        cases hanswer

theorem Sound.step (hs : s.Sound) (a : PanelStep σ β) : (s.step a).Sound := by
  cases a with
  | start page => exact (hs.start page).1
  | tick => exact hs.tick.1
  | outside lcd commands => exact ⟨hs.tended, hs.lastButtons⟩

/-- A text is passed on in a tick in which the select button goes down. -/
theorem Sound.texts_step (hs : s.Sound) {a : PanelStep σ β}
    (hselect : a = .tick → s.presses .select = false) : (s.step a).texts = s.texts := by
  cases a with
  | start page => exact (hs.start page).2
  | outside lcd commands => rfl
  | tick =>
    rcases hs.tick.2.1 with ⟨htexts, _⟩ | ⟨text, hcommands, _, _⟩
    · exact htexts
    · obtain ⟨_, hclicked, _⟩ := hcommands.menu
      rw [hs.clicked, hselect rfl] at hclicked
      cases hclicked

theorem Sound.stack_step (hs : s.Sound) {a : PanelStep σ β} (hstart : ∀ page, a ≠ .start page)
    (hstill : a = .tick → s.presses .select = false ∧ s.presses .pause = false) :
    (s.step a).nav.stack = s.nav.stack := by
  cases a with
  | start page => exact absurd rfl (hstart page)
  | outside lcd commands => rfl
  | tick =>
    obtain ⟨hselect, hpause⟩ := hstill rfl
    rcases hs.tick.2.1 with ⟨_, hstack⟩ | ⟨_, _, _, hstack⟩
    · refine Decidable.byContradiction fun hne => ?_
      have hpressed := hstack hne
      rw [hselect, hpause] at hpressed
      simp at hpressed
    · exact hstack

end Steps

variable {s : PanelSession σ β}

theorem Sound.run (hs : s.Sound) (steps : List (PanelStep σ β)) : (s.run steps).Sound := by
  induction steps generalizing s with
  | nil => exact hs
  | cons a rest ih => exact ih (hs.step a)

theorem Sound.texts_run (hs : s.Sound) {steps : List (PanelStep σ β)}
    (hselect : s.Throughout (fun r => r.presses .select = false) steps) :
    (s.run steps).texts = s.texts := by
  induction steps generalizing s with
  | nil => rfl
  | cons a rest ih => exact (ih (hs.step a) hselect.2).trans (hs.texts_step hselect.1)

theorem Sound.stack_run (hs : s.Sound) {steps : List (PanelStep σ β)}
    (hstart : ∀ page, .start page ∉ steps)
    (hstill : s.Throughout (fun r => r.presses .select = false ∧ r.presses .pause = false) steps) :
    (s.run steps).nav.stack = s.nav.stack := by
  induction steps generalizing s with
  | nil => rfl
  | cons a rest ih =>
    have hfirst : ∀ page, a ≠ .start page := fun page ha => hstart page (ha ▸ List.mem_cons_self)
    have hrest : ∀ page, .start page ∉ rest :=
      fun page hpage => hstart page (List.mem_cons_of_mem a hpage)
    exact (ih (hs.step a) hrest hstill.2).trans (hs.stack_step hfirst hstill.1)

/-- A button that is held since it was sampled last does not count as pressed again. -/
theorem presses_of_held {button : ButtonMask} {steps : List (PanelStep σ β)}
    (hlast : s.lastButtons.holds button = true)
    (hheld : s.Throughout (fun r => r.buttons.holds button = true) steps) :
    s.Throughout (fun r => r.presses button = false) steps := by
  induction steps generalizing s with
  | nil => trivial
  | cons a rest ih =>
    refine ⟨fun _ => ?_, ih ?_ hheld.2⟩
    · simp [presses, hlast]
    · cases a with
      | start page => exact hlast
      | outside lcd commands => exact hlast
      | tick =>
        simp only [step]
        split
        · exact hlast
        · exact hheld.1 rfl

/-- A tick passes on no text, or one: the command of the entry that the knob has turned to on the menu page
that was at the top, if the select button went down in this tick and the pause button did not. Pages open
or close, and a tick asks for it, only if one of the two went down. A button that is held does not go down
again, and as long as neither goes down, no text is passed on and the same pages stay open. -/
theorem press_acts_once (lcd : σ) (commands : β) (pages : List AnyPage)
    (hpages : ∀ k ∈ pages, k.Plain) (steps : List (PanelStep σ β)) :
    let s := (ofPages lcd commands pages).run steps
    let t := s.step .tick
    let pressed := s.presses .select = true ∨ s.presses .pause = true
    (t.texts = s.texts ∨
      ∃ page m item text, s.nav.active = some page ∧ s.nav.pages[page]? = some (.menu m) ∧
        m.items[(max 0 (min (m.window.current + s.detents) (m.items.length - 1))).toNat]? = some item ∧
        item.action = .command text ∧ s.presses .select = true ∧ s.presses .pause = false ∧
        t.texts = s.texts ++ [text] ∧ t.nav.stack = s.nav.stack) ∧
      (t.nav.stack ≠ s.nav.stack → pressed) ∧
      (∀ answer, (Navigator.tick (κ := AnyPage)).outcome (s.nav, s.panel) = .ok answer →
        answer ≠ .stay → pressed) ∧
      ∀ later,
        (∀ button, s.lastButtons.holds button = true →
          s.Throughout (fun r => r.buttons.holds button = true) later →
            s.Throughout (fun r => r.presses button = false) later) ∧
        (s.Throughout (fun r => r.presses .select = false) later →
          (s.run later).texts = s.texts) ∧
        ((∀ page, .start page ∉ later) →
          s.Throughout (fun r => r.presses .select = false ∧ r.presses .pause = false) later →
            (s.run later).nav.stack = s.nav.stack) := by
  intro s t pressed
  have hs : s.Sound := (ofPages_sound lcd commands hpages).run steps
  obtain ⟨_, htexts, hanswer⟩ := hs.tick
  refine ⟨?_, ?_, hanswer, fun later => ⟨fun button => presses_of_held, hs.texts_run, hs.stack_run⟩⟩
  · rcases htexts with ⟨htexts, _⟩ | ⟨text, hcommands, htexts, hstack⟩
    · exact Or.inl htexts
    · obtain ⟨⟨page, m, hactive, hpage, item, hitem, haction⟩, hclicked, hback⟩ := hcommands.menu
      rw [hs.clicked] at hclicked
      rw [hs.back] at hback
      exact Or.inr ⟨page, m, item, text, hactive, hpage, hitem, haction, hclicked, hback, htexts, hstack⟩
  · rcases htexts with ⟨_, hpressed⟩ | ⟨_, _, _, hstack⟩
    · exact hpressed
    · exact absurd hstack

/-- The second entry of the first menu opens the other one, whose entry is a command. -/
def twoMenus : List AnyPage :=
  [.menu { title := "Main", items := [⟨"Home", .command "G28"⟩, ⟨"Laser", .open 1⟩] },
    .menu { title := "Laser", items := [⟨"Off", .command "M5"⟩] }]

def fourLines : Recorder := { capabilities := 0, dimensions := none, textLines := 4, resolution := 4 }

/-- The knob turns to the second entry, and the select button goes down and stays so. -/
def openSecond : List (PanelStep Recorder CommandQueue) :=
  [.start 0, .outside (Recorder.feed 0 4) id, .tick, .outside (Recorder.feed .select 0) id, .tick]

def releaseAndPress : List (PanelStep Recorder CommandQueue) :=
  [.tick, .outside (Recorder.feed 0 0) id, .tick, .outside (Recorder.feed .select 0) id, .tick]

theorem press_held_over_opening :
    (∀ k ∈ twoMenus, k.Plain) ∧
      let s := (ofPages fourLines ({ capacity := 2 } : CommandQueue) twoMenus).run openSecond
      s.nav.stack = [1, 0] ∧ (s.run [.tick, .tick]).texts = s.texts ∧
        (s.run releaseAndPress).texts = ["M5"] := by
  have hplain : ∀ k ∈ twoMenus, k.Plain := by
    simp [twoMenus, AnyPage.Plain]
  have hlater := (press_acts_once fourLines ({ capacity := 2 } : CommandQueue) twoMenus hplain
    openSecond).2.2.2 [.tick, .tick]
  have hheld := hlater.1 .select (by decide +kernel)
    ⟨fun _ => by decide +kernel, fun _ => by decide +kernel, trivial⟩
  exact ⟨hplain, by decide +kernel, hlater.2.1 hheld, by decide +kernel⟩

end PanelSession

end FrontPanel
