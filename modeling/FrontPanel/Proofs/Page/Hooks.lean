import FrontPanel.Page.Kinds
import FrontPanel.Proofs.Action

/-!
# What the hooks of a page do

To come to the top, a page only draws. In a tick it follows the knob, and it answers or sends anything only
if a button went down in this tick: one text at most, which is the command of the entry that the knob has
turned to. All this holds whether drawing and sending succeed or fail.
-/

namespace FrontPanel

set_option autoImplicit false

open FrontPanel.Action (Ensures)

namespace Panel

variable {σ β : Type}

/-- Nothing but the display has changed. -/
def Draws (p q : Panel σ β) : Prop := ∃ lcd, q = { p with lcd := lcd }

/-- A text was passed on, and apart from that nothing but the display has changed. -/
def Sends [CommandSink β] (text : String) (p q : Panel σ β) : Prop :=
  ∃ lcd, q = { p with lcd := lcd, commands := (CommandSink.send text).after p.commands }

theorem Draws.refl (p : Panel σ β) : p.Draws p := ⟨p.lcd, rfl⟩

theorem Draws.trans {p q r : Panel σ β} (hpq : p.Draws q) (hqr : q.Draws r) : p.Draws r := by
  obtain ⟨_, rfl⟩ := hpq
  obtain ⟨lcd, rfl⟩ := hqr
  exact ⟨lcd, rfl⟩

theorem Draws.commands {p q : Panel σ β} (h : p.Draws q) : q.commands = p.commands := by
  obtain ⟨_, rfl⟩ := h
  rfl

theorem Draws.tracker {p q : Panel σ β} (h : p.Draws q) : q.tracker = p.tracker := by
  obtain ⟨_, rfl⟩ := h
  rfl

theorem Sends.tracker [CommandSink β] {text : String} {p q : Panel σ β} (h : p.Sends text q) :
    q.tracker = p.tracker := by
  obtain ⟨_, rfl⟩ := h
  rfl

theorem Draws.sends [CommandSink β] {text : String} {p q r : Panel σ β} (hpq : p.Draws q)
    (hqr : q.Sends text r) : p.Sends text r := by
  obtain ⟨_, rfl⟩ := hpq
  obtain ⟨lcd, rfl⟩ := hqr
  exact ⟨lcd, rfl⟩

theorem send_sends [CommandSink β] (text : String) (p : Panel σ β) :
    Ensures (· = p) (send text) (fun _ => p.Sends text) fun _ => p.Sends text := by
  apply Ensures.within
  rintro _ rfl
  cases hr : (CommandSink.send text : Action _ β Nat) p.commands with
  | ok n commands => exact ⟨p.lcd, by rw [Action.after, hr]⟩
  | error e commands => exact ⟨p.lcd, by rw [Action.after, hr]⟩

variable [Display σ]

theorem showMenu_draws (content : Content σ) (clear : Bool) (w : Window) (p : Panel σ β) :
    let Shown (s : Window × Panel σ β) := s.1 = w.commit ∧ p.Draws s.2
    Ensures (· = (w, p)) (showMenu content clear) (fun _ => Shown) fun _ => Shown := by
  rintro Shown _ rfl
  simp only [showMenu, Action.within, Action.failingAs, Renderer.refresh]
  cases p.renderer.redraw w content clear p.lcd with
  | ok r lcd => exact ⟨rfl, lcd, rfl⟩
  | error e lcd => exact ⟨rfl, lcd, rfl⟩

/-- The window `w` has followed the knob, and may have been drawn. -/
structure Followed (w : Window) (p : Panel σ β) (s : Window × Panel σ β) : Prop where
  rows : s.1.rows = w.rows
  current : s.1.current = (w.move p.events.detents).2.current
  draws : p.Draws s.2

end Panel

namespace Window

theorem rows_move (delta : Int) (w : Window) : (w.move delta).2.rows = w.rows := by
  unfold move select
  split
  · rfl
  · split
    · rfl
    · rfl

/-- The window when the knob has been followed: drawn again if the highlight has moved. -/
def followed (detents : Int) (w : Window) : Window :=
  let moved := w.move detents
  if moved.1 then moved.2.commit else moved.2

section Followed

variable {w : Window} {detents : Int}

theorem followed_of_moved (h : (w.move detents).1 = true) :
    w.followed detents = (w.move detents).2.commit := if_pos h

theorem followed_of_still (h : ¬ (w.move detents).1 = true) :
    w.followed detents = (w.move detents).2 := if_neg h

theorem rows_followed : (w.followed detents).rows = w.rows := by
  rw [← w.rows_move detents]
  by_cases hmoved : (w.move detents).1 = true
  · rw [followed_of_moved hmoved]
    rfl
  · rw [followed_of_still hmoved]

theorem current_followed : (w.followed detents).current = (w.move detents).2.current := by
  by_cases hmoved : (w.move detents).1 = true
  · rw [followed_of_moved hmoved]
    rfl
  · rw [followed_of_still hmoved]

end Followed

end Window

namespace Panel

variable {σ β : Type} [Display σ] (content : Content σ) (w : Window) (p : Panel σ β)

theorem followKnob_draws :
    let Left (s : Window × Panel σ β) := s.1 = w.followed p.events.detents ∧ p.Draws s.2
    Ensures (· = (w, p)) (followKnob content) (fun _ => Left) fun _ => Left := by
  rintro Left _ rfl
  unfold followKnob
  dsimp only
  by_cases hmoved : (w.move p.events.detents).1 = true
  · have hwindow := Window.followed_of_moved hmoved
    have hleft : ∀ s : Window × Panel σ β,
        s.1 = (w.move p.events.detents).2.commit ∧ p.Draws s.2 → Left s :=
      fun s hs => ⟨hs.1.trans hwindow.symm, hs.2⟩
    have hshown : Ensures (· = ((w.move p.events.detents).2, p))
        (do let _ ← showMenu content false) (fun _ => Left) fun _ => Left := by
      refine Ensures.bind (Q := fun _ => Left) ?_ fun _ => Ensures.pure fun _ h => h
      exact (showMenu_draws content false _ p).mono (fun _ h => h) (fun _ => hleft) fun _ => hleft
    rw [if_pos hmoved]
    exact hshown _ rfl
  · rw [if_neg hmoved]
    exact ⟨(Window.followed_of_still hmoved).symm, Draws.refl p⟩

theorem followKnob_followed :
    Ensures (· = (w, p)) (followKnob content) (fun _ => Followed w p) fun _ => Followed w p := by
  have hfollowed : ∀ s : Window × Panel σ β,
      s.1 = w.followed p.events.detents ∧ p.Draws s.2 → Followed w p s := fun s hs =>
    ⟨hs.1 ▸ Window.rows_followed, hs.1 ▸ Window.current_followed, hs.2⟩
  exact (followKnob_draws content w p).mono (fun _ h => h) (fun _ => hfollowed) fun _ => hfollowed

end Panel

/-- One of the two buttons went down in this tick. -/
def PanelEvents.Pressed (e : PanelEvents) : Prop := e.clicked = true ∨ e.back = true

/-- What a tick may do and answer, if `sends` are the texts that it may send. -/
inductive Panel.Reacts {σ β : Type} [CommandSink β] (sends : String → Prop) (p q : Panel σ β) :
    Transition → Prop where
  | stays (draws : p.Draws q) : Reacts sends p q .stay
  | moves {answer : Transition} (pressed : p.events.Pressed) (draws : p.Draws q) :
      Reacts sends p q answer
  | sends {text : String} (allowed : sends text) (passed : p.Sends text q) : Reacts sends p q .stay

theorem Panel.Reacts.mono {σ β : Type} [CommandSink β] {sends sends' : String → Prop}
    {p q : Panel σ β} {answer : Transition} (h : p.Reacts sends q answer)
    (hsends : ∀ text, sends text → sends' text) : p.Reacts sends' q answer := by
  cases h with
  | stays draws => exact .stays draws
  | moves pressed draws => exact .moves pressed draws
  | sends allowed passed => exact .sends (hsends _ allowed) passed

theorem Panel.Reacts.tracker {σ β : Type} [CommandSink β] {sends : String → Prop} {p q : Panel σ β}
    {answer : Transition} (h : p.Reacts sends q answer) : q.tracker = p.tracker := by
  cases h with
  | stays draws => exact draws.tracker
  | moves _ draws => exact draws.tracker
  | sends _ passed => exact passed.tracker

theorem Panel.Reacts.of_ne_stay {σ β : Type} [CommandSink β] {sends : String → Prop}
    {p q : Panel σ β} {answer : Transition} (h : p.Reacts sends q answer) (hanswer : answer ≠ .stay) :
    p.events.Pressed ∧ p.Draws q := by
  cases h with
  | stays draws => exact absurd rfl hanswer
  | moves pressed draws => exact ⟨pressed, draws⟩
  | sends allowed passed => exact absurd rfl hanswer

namespace MenuPage

/-- The window covers all entries and highlights one of them, if there are any. -/
structure Open (m : MenuPage) : Prop where
  length_le : m.items.length ≤ 65535
  rows : m.window.rows = m.items.length
  current : m.items ≠ [] → m.window.current < m.items.length

/-- The entry that the highlight moves to, at most to either end. -/
def target (m : MenuPage) (detents : Int) : Nat :=
  (max 0 (min (m.window.current + detents) (m.items.length - 1))).toNat

/-- The text is the command of the entry that the knob has turned to, and a click sends it. -/
def Commands (m : MenuPage) (e : PanelEvents) (text : String) : Prop :=
  e.clicked = true ∧ e.back = false ∧
    ∃ item, m.items[m.target e.detents]? = some item ∧ item.action = .command text

theorem Open.current_move {m : MenuPage} (h : m.Open) (hitems : m.items ≠ []) (detents : Int) :
    (m.window.move detents).2.current = m.target detents := by
  have hrows := h.rows
  have hcurrent := h.current hitems
  have hlength : 0 < m.items.length := List.length_pos_iff.mpr hitems
  unfold Window.move target
  by_cases hstill : m.window.rows = 0 ∨ detents = 0
  · rw [if_pos hstill]
    change m.window.current = _
    omega
  · rw [if_neg hstill]
    unfold Window.select
    rw [if_neg (by omega)]
    dsimp only
    omega

/-- The page after its window has followed the knob. -/
theorem Open.followed {m : MenuPage} (h : m.Open) {w : Window} (hrows : w.rows = m.window.rows)
    {detents : Int} (hcurrent : w.current = (m.window.move detents).2.current) :
    Open { m with window := w } ∧
      selected { m with window := w } = m.items[m.target detents]? := by
  have hlt (hitems : m.items ≠ []) : m.target detents < m.items.length := by
    have hlength : 0 < m.items.length := List.length_pos_iff.mpr hitems
    unfold target
    omega
  refine ⟨⟨h.length_le, hrows.trans h.rows, fun hitems => ?_⟩, ?_⟩
  · change w.current < m.items.length
    rw [hcurrent, h.current_move hitems]
    exact hlt hitems
  · change m.items[w.current]? = _
    by_cases hitems : m.items = []
    · rw [hitems]
      rfl
    · rw [hcurrent, h.current_move hitems]

variable {σ β : Type}

theorem open_enteredWindow {m : MenuPage} (h : m.items.length ≤ 65535) (p : Panel σ β) :
    Open { m with window := m.enteredWindow p } := by
  have hrows : m.rows = m.items.length := Nat.mod_eq_of_lt (Nat.lt_succ_of_le h)
  unfold enteredWindow Panel.windowFor Window.ofRows Window.select
  refine ⟨h, ?_, fun hitems => ?_⟩
  · by_cases hnone : m.rows = 0
    · simp only [if_pos hnone]
      exact hrows
    · simp only [if_neg hnone]
      exact hrows
  · have hlength : 0 < m.items.length := List.length_pos_iff.mpr hitems
    have hsome : ¬ m.rows = 0 := by omega
    simp only [if_neg hsome, Window.commit]
    omega

/-- Whatever becomes of the drawing, coming to the top changes the window alone. -/
theorem enter_sets [Display σ] (m : MenuPage) (p : Panel σ β) :
    let Entered (s : MenuPage × Panel σ β) :=
      s.1 = { m with window := m.enteredWindow p } ∧ p.Draws s.2
    Ensures (· = (m, p)) enter (fun _ => Entered) fun _ => Entered := by
  intro Entered
  have hcommit : (m.enteredWindow p).commit = m.enteredWindow p := rfl
  unfold enter
  refine Ensures.bind (Q := fun _ s => s = ({ m with window := m.enteredWindow p }, p))
    (Ensures.modified fun s hs => hs ▸ rfl) fun _ => ?_
  refine Ensures.get_bind ?_
  rintro _ rfl
  refine Ensures.bind (Q := fun _ => Entered) (Ensures.within ?_) fun _ => Ensures.pure fun _ h => h
  have hshown : ∀ s : Window × Panel σ β, s.1 = (m.enteredWindow p).commit ∧ p.Draws s.2 →
      Entered ({ m with window := s.1 }, s.2) := by
    rintro ⟨w, q⟩ ⟨hw, hdraws⟩
    refine ⟨?_, hdraws⟩
    dsimp only at hw ⊢
    rw [hw, hcommit]
  exact (Panel.showMenu_draws _ true _ p).mono (fun _ h => h) (fun _ => hshown) fun _ => hshown

theorem enter_draws [Display σ] {m : MenuPage} (h : m.items.length ≤ 65535) (p : Panel σ β) :
    let Entered (s : MenuPage × Panel σ β) := s.1.Open ∧ p.Draws s.2
    Ensures (· = (m, p)) enter (fun _ => Entered) fun _ => Entered := by
  intro Entered
  have hentered : ∀ s : MenuPage × Panel σ β,
      s.1 = { m with window := m.enteredWindow p } ∧ p.Draws s.2 → Entered s :=
    fun s hs => ⟨hs.1 ▸ open_enteredWindow h p, hs.2⟩
  exact (enter_sets m p).mono (fun _ h => h) (fun _ => hentered) fun _ => hentered

variable [CommandSink β]

theorem choose_reacts {item : Option MenuItem} {p q : Panel σ β} (hdraws : p.Draws q)
    {sends : String → Prop} (hclicked : p.events.clicked = true)
    (hsends : ∀ chosen text, item = some chosen → chosen.action = .command text → sends text) :
    Ensures (· = q) (choose item) (fun answer r => p.Reacts sends r answer)
      fun _ r => p.Reacts sends r .stay := by
  cases item with
  | none => exact Ensures.pure fun _ h => h ▸ .stays hdraws
  | some chosen =>
    unfold choose
    cases haction : chosen.action with
    | command text =>
      have hallowed := hsends chosen text rfl haction
      simp only [haction]
      refine Ensures.bind (Q := fun _ r => p.Reacts sends r .stay) (Ensures.failingAs ?_)
        fun _ => Ensures.pure fun _ h => h
      exact (Panel.send_sends text q).mono (fun _ h => h)
        (fun _ _ h => .sends hallowed (hdraws.sends h)) fun _ _ h => .sends hallowed (hdraws.sends h)
    | «open» page =>
      simp only [haction]
      exact Ensures.pure fun _ h => h ▸ .moves (Or.inl hclicked) hdraws
    | back =>
      simp only [haction]
      exact Ensures.pure fun _ h => h ▸ .moves (Or.inl hclicked) hdraws

theorem tick_reacts [Display σ] {m : MenuPage} (h : m.Open) (p : Panel σ β) :
    let Reacted (answer : Transition) (s : MenuPage × Panel σ β) :=
      s.1.Open ∧ p.Reacts (m.Commands p.events) s.2 answer
    Ensures (· = (m, p)) tick Reacted fun _ => Reacted .stay := by
  intro Reacted
  unfold tick
  refine Ensures.get_bind ?_
  rintro _ rfl
  let Moved (s : MenuPage × Panel σ β) : Prop :=
    s.1.Open ∧ s.1.selected = m.items[m.target p.events.detents]? ∧ p.Draws s.2
  have hmoved : ∀ s : Window × Panel σ β, Panel.Followed m.window p s →
      Moved ({ m with window := s.1 }, s.2) := fun s hs =>
    have hpage := h.followed hs.rows hs.current
    ⟨hpage.1, hpage.2, hs.draws⟩
  refine Ensures.bind (Q := fun _ => Moved) (Ensures.within ?_) fun _ => ?_
  · exact (Panel.followKnob_followed _ m.window p).mono (fun _ h => h) (fun _ => hmoved)
      fun _ s hs => ⟨(hmoved s hs).1, .stays hs.draws⟩
  · refine Ensures.ite (fun hback => ?_) fun hback => ?_
    · exact Ensures.pure fun s hs => ⟨hs.1, .moves (Or.inr hback) hs.2.2⟩
    · refine Ensures.ite (fun hclicked => ?_) fun _ => ?_
      · refine Ensures.get_bind ?_
        rintro ⟨m', q⟩ ⟨hopen, hselected, hdraws⟩
        have hcommands : ∀ chosen text, m'.selected = some chosen → chosen.action = .command text →
            m.Commands p.events text := fun chosen text hchosen haction =>
          ⟨hclicked, Bool.eq_false_iff.mpr hback, chosen, hselected ▸ hchosen, haction⟩
        refine Ensures.within ?_
        exact (choose_reacts hdraws hclicked hcommands).mono (fun _ h => h)
          (fun _ _ hr => ⟨hopen, hr⟩) fun _ _ hr => ⟨hopen, hr⟩
      · exact Ensures.pure fun s hs => ⟨hs.1, .stays hs.2.2⟩

end MenuPage

namespace AboutPage

theorem length_makeLines_le (a : AboutPage) : a.makeLines.length ≤ 5 := by
  unfold makeLines
  rw [List.length_map]
  exact List.length_filter_le _ a.fields

variable {σ β : Type} [Display σ]

/-- Whatever becomes of the drawing, coming to the top makes the rows and the window anew. -/
theorem enter_sets (a : AboutPage) (p : Panel σ β) :
    let Entered (s : AboutPage × Panel σ β) :=
      s.1 = { a with lines := a.makeLines, window := (p.windowFor a.makeLines.length).commit } ∧
        p.Draws s.2
    Ensures (· = (a, p)) enter (fun _ => Entered) fun _ => Entered := by
  intro Entered
  let new : AboutPage := { a with lines := a.makeLines, window := p.windowFor a.makeLines.length }
  unfold enter
  refine Ensures.bind (Q := fun _ => (· = (new, p)))
    (Ensures.modified fun s hs => by rw [hs]) fun _ => ?_
  refine Ensures.get_bind ?_
  rintro _ rfl
  refine Ensures.bind (Q := fun _ => Entered) (Ensures.within ?_) fun _ => Ensures.pure fun _ h => h
  have hshown : ∀ s : Window × Panel σ β, s.1 = new.window.commit ∧ p.Draws s.2 →
      Entered ({ new with window := s.1 }, s.2) := fun s hs => ⟨by rw [hs.1], hs.2⟩
  exact (Panel.showMenu_draws new.content true new.window p).mono (fun _ h => h)
    (fun _ => hshown) fun _ => hshown

theorem enter_draws (a : AboutPage) (p : Panel σ β) :
    let Entered (s : AboutPage × Panel σ β) := p.Draws s.2
    Ensures (· = (a, p)) enter (fun _ => Entered) fun _ => Entered :=
  (enter_sets a p).mono (fun _ h => h) (fun _ _ hs => hs.2) fun _ _ hs => hs.2

theorem after_enter (a : AboutPage) (p : Panel σ β) :
    (enter.after (a, p)).1 =
      { a with lines := a.makeLines, window := (p.windowFor a.makeLines.length).commit } :=
  ((enter_sets a p).after rfl).1

theorem after_tick (a : AboutPage) (p : Panel σ β) :
    (tick.after (a, p)).1 = { a with window := a.window.followed p.events.detents } := by
  let Left (s : AboutPage × Panel σ β) : Prop :=
    s.1 = { a with window := a.window.followed p.events.detents }
  suffices hleft : Ensures (· = (a, p)) tick (fun _ => Left) fun _ => Left from hleft.after rfl
  unfold tick
  refine Ensures.get_bind ?_
  rintro _ rfl
  refine Ensures.bind (Q := fun _ => Left) (Ensures.within ?_) fun _ => Ensures.pure fun _ h => h
  have hfollowed : ∀ s : Window × Panel σ β,
      s.1 = a.window.followed p.events.detents ∧ p.Draws s.2 →
        Left ({ a with window := s.1 }, s.2) := fun s hs => by rw [hs.1]
  exact (Panel.followKnob_draws a.content a.window p).mono (fun _ h => h)
    (fun _ => hfollowed) fun _ => hfollowed

theorem tick_reacts [CommandSink β] (a : AboutPage) (p : Panel σ β) :
    let Reacted (answer : Transition) (s : AboutPage × Panel σ β) :=
      p.Reacts (fun _ => False) s.2 answer
    Ensures (· = (a, p)) tick Reacted fun _ => Reacted .stay := by
  intro Reacted
  unfold tick
  refine Ensures.get_bind ?_
  rintro _ rfl
  refine Ensures.bind (Q := fun _ s => p.Draws s.2) (Ensures.within ?_) fun _ => ?_
  · exact (Panel.followKnob_followed _ a.window p).mono (fun _ h => h) (fun _ _ hs => hs.draws)
      fun _ _ hs => .stays hs.draws
  · refine Ensures.pure fun s hs => ?_
    by_cases hpressed : (p.events.clicked || p.events.back) = true
    · exact .moves ((Bool.or_eq_true _ _).mp hpressed) hs
    · simp only [hpressed]
      exact .stays hs

end AboutPage

namespace AnyPage

/-- An about page, or a menu page with no more entries than sixteen bits can count. -/
def Plain : AnyPage → Prop
  | .menu m => m.items.length ≤ 65535
  | .about _ => True
  | .scripted _ => False

def Open : AnyPage → Prop
  | .menu m => m.Open
  | .about _ => True
  | .scripted _ => False

/-- The text is what the page sends on these events. -/
def Commands (e : PanelEvents) (text : String) : AnyPage → Prop
  | .menu m => m.Commands e text
  | _ => False

theorem Open.plain {k : AnyPage} (h : k.Open) : k.Plain := by
  cases k with
  | menu m => exact MenuPage.Open.length_le h
  | about a => trivial
  | scripted s => exact h

theorem fst_after_lift {σ β κ α : Type} (wrap : κ → AnyPage) (k : κ)
    (hook : Action PanelError (κ × Panel σ β) α) (s : AnyPage × Panel σ β) :
    ((lift wrap k hook).after s).1 = wrap (hook.after (k, s.2)).1 := by
  unfold lift
  rw [Action.after_within]

variable {σ β : Type} [Display σ]

theorem enter_draws {k : AnyPage} (h : k.Plain) (p : Panel σ β) :
    let Entered (s : AnyPage × Panel σ β) := s.1.Open ∧ p.Draws s.2
    Ensures (· = (k, p)) enter (fun _ => Entered) fun _ => Entered := by
  intro Entered
  unfold enter
  refine Ensures.get_bind ?_
  rintro _ rfl
  cases k with
  | menu m => exact Ensures.within (MenuPage.enter_draws h p)
  | about a =>
    exact Ensures.within ((AboutPage.enter_draws a p).mono (fun _ h => h)
      (fun _ _ hs => ⟨trivial, hs⟩) fun _ _ hs => ⟨trivial, hs⟩)
  | scripted s => exact h.elim

theorem tick_reacts [CommandSink β] {k : AnyPage} (h : k.Open) (p : Panel σ β) :
    let Reacted (answer : Transition) (s : AnyPage × Panel σ β) :=
      s.1.Open ∧ p.Reacts (k.Commands p.events) s.2 answer
    Ensures (· = (k, p)) tick Reacted fun _ => Reacted .stay := by
  intro Reacted
  unfold tick
  refine Ensures.get_bind ?_
  rintro _ rfl
  cases k with
  | menu m => exact Ensures.within (MenuPage.tick_reacts h p)
  | about a =>
    exact Ensures.within ((AboutPage.tick_reacts a p).mono (fun _ h => h)
      (fun _ _ hs => ⟨trivial, hs⟩) fun _ _ hs => ⟨trivial, hs⟩)
  | scripted s => exact h.elim

end AnyPage

end FrontPanel
