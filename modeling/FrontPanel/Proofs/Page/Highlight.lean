import FrontPanel.Proofs.Page.Presses
import FrontPanel.Proofs.Page.Windows

/-!
# The highlight survives navigation

Only the knob moves the highlight of a menu page, and only while the page is at the top. Other pages, of
whatever kind, may come and go above it, and drawing may fail.
-/

namespace FrontPanel

set_option autoImplicit false

open FrontPanel.Action (Ensures Keeps)

namespace MenuPage

variable {σ β : Type} [Display σ]

/-- The entries of a menu page and the number of the highlighted one. -/
structure Mark where
  items : List MenuItem
  current : Nat

def mark (m : MenuPage) : Mark := ⟨m.items, m.window.current⟩

/-- The highlight goes as many entries on as the knob has turned, at most to either end. -/
def Mark.turned (detents : Int) (k : Mark) : Mark :=
  { k with current := (Number.clamp 0 (k.items.length - 1) (k.current + detents)).toNat }

/-- If there is a menu page it has this mark, and it is in range. -/
structure Marked (mark : Option Mark) (page : Option MenuPage) : Prop where
  mark : page.map MenuPage.mark = mark
  inRange : ∀ m ∈ page, m.InRange

structure MarkedShown (mark : Option Mark) (page : Option MenuPage) : Prop where
  marked : Marked mark page
  shown : ∀ m ∈ page, m.Shown

theorem Marked.entered {mark : Option Mark} {page : Option MenuPage} (h : Marked mark page)
    (p : Panel σ β) : MarkedShown mark (page.map fun m => (enter.after (m, p)).1) := by
  cases page with
  | none => exact ⟨h, fun m hm => by cases hm⟩
  | some m =>
    have hrange := h.inRange m rfl
    have hshown := hrange.entered p
    rw [Option.map_some, after_enter]
    refine ⟨⟨?_, ?_⟩, ?_⟩
    · rw [← h.mark, Option.map_some, Option.map_some]
      simp only [MenuPage.mark, enteredWindow_current hrange p]
    · rintro _ ⟨⟩
      exact hshown.inRange
    · rintro _ ⟨⟩
      exact hshown

theorem MarkedShown.ticked [CommandSink β] {mark : Option Mark} {page : Option MenuPage}
    (h : MarkedShown mark page) (p : Panel σ β) :
    MarkedShown (mark.map (Mark.turned p.events.detents))
      (page.map fun m => (tick.after (m, p)).1) := by
  cases page with
  | none =>
    rw [← h.marked.mark]
    exact ⟨⟨rfl, fun m hm => by cases hm⟩, fun m hm => by cases hm⟩
  | some m =>
    have hshown := h.shown m rfl
    have hnext := hshown.followed p.events.detents
    have hcurrent := Window.current_followed_eq_clamp hshown.restored.sound.bounds p.events.detents
    rw [hshown.rows] at hcurrent
    rw [Option.map_some, after_tick]
    refine ⟨⟨?_, ?_⟩, ?_⟩
    · rw [← h.marked.mark, Option.map_some, Option.map_some, Option.map_some]
      simp only [MenuPage.mark, Mark.turned, ← hcurrent, Int.toNat_natCast]
    · rintro _ ⟨⟩
      exact hnext.inRange
    · rintro _ ⟨⟩
      exact hnext

end MenuPage

/-- Which pages of a kind are menu pages, and that their hooks are the hooks of menu pages. -/
structure MenuView (κ σ β : Type) [Display σ] [CommandSink β] [Page κ σ β] where
  menu : κ → Option MenuPage
  enter : ∀ (k : κ) (p : Panel σ β), menu ((Page.enter (κ := κ)).after (k, p)).1 =
    (menu k).map fun m => (MenuPage.enter.after (m, p)).1
  tick : ∀ (k : κ) (p : Panel σ β), menu ((Page.tick (κ := κ)).after (k, p)).1 =
    (menu k).map fun m => (MenuPage.tick.after (m, p)).1

namespace AnyPage

variable {σ β : Type}

def asMenu : AnyPage → Option MenuPage
  | .menu m => some m
  | _ => none

/-- The menu pages among all pages. -/
def menus (σ β : Type) [Display σ] [CommandSink β] : MenuView AnyPage σ β where
  menu := asMenu
  enter k p := by
    cases k with
    | menu m => exact congrArg asMenu (fst_after_lift .menu m MenuPage.enter (.menu m, p))
    | about a => exact congrArg asMenu (fst_after_lift .about a AboutPage.enter (.about a, p))
    | scripted s => exact congrArg asMenu (fst_after_lift .scripted s ScriptedPage.enter (.scripted s, p))
  tick k p := by
    cases k with
    | menu m => exact congrArg asMenu (fst_after_lift .menu m MenuPage.tick (.menu m, p))
    | about a => exact congrArg asMenu (fst_after_lift .about a AboutPage.tick (.about a, p))
    | scripted s => exact congrArg asMenu (fst_after_lift .scripted s ScriptedPage.tick (.scripted s, p))

end AnyPage

namespace Navigator.Journey

variable {κ σ β : Type} [Display σ]

/-- What a step makes of the mark of a page. -/
def nextMark (j : Journey κ σ β) (i : Nat) (mark : MenuPage.Mark) : Step κ σ β → MenuPage.Mark
  | .tick => if j.nav.active = some i then mark.turned j.panel.poll.events.detents else mark
  | _ => mark

variable {j : Journey κ σ β} {i : Nat} (mark : MenuPage.Mark)

theorem nextMark_turned (hactive : j.nav.active = some i) :
    j.nextMark i mark .tick = mark.turned j.panel.poll.events.detents := if_pos hactive

theorem nextMark_still {a : Step κ σ β} (h : a = .tick → j.nav.active ≠ some i) :
    j.nextMark i mark a = mark := by
  cases a with
  | tick => exact if_neg (h rfl)
  | _ => rfl

theorem nextMark_items (a : Step κ σ β) : (j.nextMark i mark a).items = mark.items := by
  cases a with
  | tick =>
    by_cases hactive : j.nav.active = some i
    · rw [nextMark_turned mark hactive]
      rfl
    · rw [nextMark_still mark fun _ => hactive]
  | _ => rfl

end Navigator.Journey

namespace MenuView

variable {κ σ β : Type} [Display σ] [CommandSink β] [Page κ σ β]

/-- Only the menu pages of no more entries than sixteen bits can count. -/
def countable (V : MenuView κ σ β) : MenuView κ σ β where
  menu k := (V.menu k).filter fun m => m.items.length ≤ 65535
  enter k p := by
    rw [V.enter]
    cases V.menu k with
    | none => rfl
    | some m => simp [Option.filter_some, MenuPage.after_enter, apply_ite]
  tick k p := by
    rw [V.tick]
    cases V.menu k with
    | none => rfl
    | some m => simp [Option.filter_some, MenuPage.after_tick, apply_ite]

/-- The menu page that was added under a number. -/
def page (V : MenuView κ σ β) (n : Navigator κ) (i : Nat) : Option MenuPage :=
  n.pages[i]?.bind V.menu

def marks (V : MenuView κ σ β) (n : Navigator κ) (i : Nat) : Option MenuPage.Mark :=
  (V.page n i).map MenuPage.mark

/-- The menu pages have these marks, and the open ones are shown. -/
def Marks (V : MenuView κ σ β) (marks : Nat → Option MenuPage.Mark)
    (s : Navigator κ × Panel σ β) : Prop :=
  Navigator.Settled (fun i k => MenuPage.Marked (marks i) (k.bind V.menu))
    (fun i k => MenuPage.MarkedShown (marks i) (k.bind V.menu)) (fun _ => True) s

theorem marks_settle (V : MenuView κ σ β) (marks : Nat → Option MenuPage.Mark) :
    Navigator.Settles (fun i k => MenuPage.Marked (marks i) (k.bind V.menu))
      (fun i k => MenuPage.MarkedShown (marks i) (k.bind V.menu)) fun _ : Panel σ β => True where
  weaken _ _ h := h.marked
  missing i h := ⟨h, fun m hm => by cases hm⟩
  enter i := by
    refine Ensures.of_after fun s hs => ⟨?_, trivial⟩
    rw [Option.bind_some, V.enter s.1 s.2]
    exact hs.1.entered s.2

theorem Marks.eq {V : MenuView κ σ β} {marks : Nat → Option MenuPage.Mark}
    {s : Navigator κ × Panel σ β} (h : V.Marks marks s) : V.marks s.1 = marks :=
  funext fun i => (h.1.all i).mark

/-- The marks after a turn of the knob on one page. -/
def turnedOn (active : Nat) (detents : Int) (marks : Nat → Option MenuPage.Mark) (i : Nat) :
    Option MenuPage.Mark :=
  if i = active then (marks i).map (MenuPage.Mark.turned detents) else marks i

variable {V : MenuView κ σ β} {marks : Nat → Option MenuPage.Mark} {n : Navigator κ} {p : Panel σ β}

theorem Marks.hook (h : V.Marks marks (n, p)) {active : Nat} (hactive : n.active = some active) :
    Ensures (· = (n, p)) (Navigator.onPage active Page.tick Transition.stay)
      (fun _ => V.Marks (turnedOn active p.events.detents marks))
      fun _ => V.Marks (turnedOn active p.events.detents marks) := by
  have hothers : ∀ i, i ≠ active → turnedOn active p.events.detents marks i = marks i :=
    fun i hne => if_neg hne
  have hself : turnedOn active p.events.detents marks active =
      (marks active).map (MenuPage.Mark.turned p.events.detents) := if_pos rfl
  cases hpage : n.pages[active]? with
  | none =>
    rintro _ rfl
    have hnone : marks active = none := by
      rw [← (h.1.all active).mark, hpage]
      rfl
    have hsame : turnedOn active p.events.detents marks = marks := by
      funext i
      by_cases hi : i = active
      · rw [hi, hself, hnone]
        rfl
      · exact hothers i hi
    simp only [Navigator.onPage, hpage, hsame]
    exact h
  | some k =>
    refine Navigator.onPage_ensures hpage (Ensures.of_after ?_)
    rintro _ rfl
    have hshown := h.1.opened active (List.mem_of_head? hactive)
    rw [hpage, Option.bind_some] at hshown
    refine ⟨.set hpage (fun _ _ hi => hi.marked) (fun i hi => ?_) (fun i hopen hi => ?_) ?_, trivial⟩
    · rw [hothers i hi]
      exact h.1.all i
    · rw [hothers i hi]
      exact h.1.opened i hopen
    · rw [hself, Option.bind_some, V.tick k p]
      exact hshown.ticked p

theorem Marks.tick (h : V.Marks marks (n, p)) {active : Nat} (hactive : n.active = some active) :
    V.Marks (turnedOn active p.poll.events.detents marks) (Navigator.tick.after (n, p)) := by
  have hrun : Ensures (· = (n, p)) (Navigator.tick (κ := κ))
      (fun _ => V.Marks (turnedOn active p.poll.events.detents marks))
      fun _ => V.Marks (turnedOn active p.poll.events.detents marks) := by
    have hpolled : V.Marks marks (n, p.poll) := h
    unfold Navigator.tick
    refine Ensures.get_bind ?_
    rintro _ rfl
    simp only [hactive]
    refine Ensures.bind (Q := fun _ s => s = (n, p.poll)) (Ensures.modified fun s hs => by rw [hs])
      fun _ => ?_
    refine Ensures.bind (hpolled.hook hactive) fun answer => ?_
    exact Ensures.bind ((V.marks_settle _).follow answer) fun _ => Ensures.pure fun _ h => h
  exact hrun.after rfl

open Navigator (Journey Step)

/-- The menu pages are in range, and the open ones are shown. -/
def Tended (V : MenuView κ σ β) (j : Journey κ σ β) : Prop :=
  V.Marks (V.marks j.nav) (j.nav, j.panel)

theorem tended_of_marks {j : Journey κ σ β} (h : V.Marks marks (j.nav, j.panel)) : V.Tended j := by
  unfold Tended
  rw [h.eq]
  exact h

theorem Tended.after {j : Journey κ σ β} (h : V.Tended j) {α : Type}
    {x : Action PanelError (Navigator κ × Panel σ β) α} (hx : Keeps (V.Marks (V.marks j.nav)) x) :
    V.Tended (j.after x) ∧ ∀ i mark, V.marks j.nav i = some mark →
      V.marks (j.after x).nav i = some mark := by
  have hafter : V.Marks (V.marks j.nav) ((j.after x).nav, (j.after x).panel) := hx.after h
  refine ⟨tended_of_marks hafter, fun i mark hi => ?_⟩
  rw [hafter.eq, hi]

theorem tended_iff {j : Journey κ σ β} :
    V.Tended j ↔ (∀ i m, V.page j.nav i = some m → m.InRange) ∧
      ∀ i ∈ j.nav.stack, ∀ m, V.page j.nav i = some m → m.Shown := by
  constructor
  · intro h
    exact ⟨fun i => (h.1.all i).inRange, fun i hi => (h.1.opened i hi).shown⟩
  · rintro ⟨hrange, hshown⟩
    exact ⟨⟨fun i => ⟨rfl, hrange i⟩, fun i hi => ⟨⟨rfl, hrange i⟩, hshown i hi⟩⟩, trivial⟩

theorem page_append (V : MenuView κ σ β) (n : Navigator κ) (k : κ) (i : Nat) :
    V.page { n with pages := n.pages ++ [k] } i =
      if i = n.pages.length then V.menu k else V.page n i := by
  unfold page
  by_cases hlt : i < n.pages.length
  · rw [if_neg hlt.ne]
    exact congrArg (Option.bind · V.menu) (List.getElem?_append_left hlt)
  · change (n.pages ++ [k])[i]?.bind V.menu = _
    rw [List.getElem?_append_right (Nat.le_of_not_lt hlt)]
    by_cases hend : i = n.pages.length
    · rw [if_pos hend, hend, Nat.sub_self]
      rfl
    · have hbeyond : ¬ i - n.pages.length = 0 := by omega
      rw [if_neg hend, List.getElem?_eq_none (Nat.le_of_not_lt hlt)]
      simp [hbeyond]

theorem marks_add {j : Journey κ σ β} {i : Nat} {mark : MenuPage.Mark}
    (hi : V.marks j.nav i = some mark) (k : κ) :
    V.marks (j.step (.add k)).nav i = some mark := by
  rcases j.step_add k with hstep | hstep
  · rw [hstep]
    exact hi
  · have hne : i ≠ j.nav.pages.length := by
      rintro rfl
      unfold MenuView.marks page at hi
      rw [List.getElem?_eq_none (Nat.le_refl _)] at hi
      cases hi
    rw [hstep]
    unfold MenuView.marks
    rw [page_append, if_neg hne]
    exact hi

theorem tended_add {j : Journey κ σ β} (h : V.Tended j) (hsound : j.nav.Sound j.root) {k : κ}
    (hk : ∀ m, V.menu k = some m → m.InRange) : V.Tended (j.step (.add k)) := by
  rcases j.step_add k with hstep | hstep
  · rw [hstep]
    exact h
  · obtain ⟨hrange, hshown⟩ := tended_iff.mp h
    rw [hstep]
    refine tended_iff.mpr ⟨fun i m hm => ?_, fun i hi m hm => ?_⟩
    · rw [page_append] at hm
      split at hm
      · exact hk m hm
      · exact hrange i m hm
    · -- the number of the new page is none of the open ones
      rw [page_append, if_neg (hsound.added i hi).ne] at hm
      exact hshown i hi m hm

theorem Tended.step {j : Journey κ σ β} (h : V.Tended j) (hsound : j.nav.Sound j.root)
    {a : Step κ σ β}
    (hadded : ∀ k m, a = .add k → V.menu k = some m → m.InRange) :
    V.Tended (j.step a) ∧ ∀ i mark, V.marks j.nav i = some mark →
      V.marks (j.step a).nav i = some (j.nextMark i mark a) := by
  cases a with
  | add k => exact ⟨tended_add h hsound fun m => hadded k m rfl, fun i mark hi => marks_add hi k⟩
  | start page => exact h.after ((V.marks_settle _).start page)
  | enter page => exact h.after ((V.marks_settle _).enterPage page)
  | back => exact h.after (V.marks_settle _).back
  | backTo page => exact h.after ((V.marks_settle _).backTo page)
  | tick =>
    cases hactive : j.nav.active with
    | none =>
      have hrest : j.step .tick = j := by
        change j.after Navigator.tick = j
        unfold Journey.after
        rw [Action.after_of_ok (Navigator.tick_of_none hactive)]
      rw [hrest]
      refine ⟨h, fun i mark hi => ?_⟩
      exact hi.trans (congrArg some (Journey.nextMark_still mark fun _ => by simp [hactive]).symm)
    | some active =>
      have hafter := Marks.tick h hactive
      refine ⟨tended_of_marks hafter, fun i mark hi => ?_⟩
      refine (congrFun hafter.eq i).trans ?_
      by_cases hsame : i = active
      · simp [turnedOn, Journey.nextMark, hactive, hsame ▸ hi, hsame]
      · simp [turnedOn, Journey.nextMark, hactive, hi, hsame, Ne.symm hsame]
  | panel change => exact ⟨h, fun i mark hi => hi⟩

theorem tended_of_run {j : Journey κ σ β} (h : V.Tended j) (hsound : j.nav.Sound j.root)
    {steps : List (Step κ σ β)} (hadded : ∀ k m, .add k ∈ steps → V.menu k = some m → m.InRange) :
    V.Tended (steps.foldl Journey.step j) := by
  induction steps generalizing j with
  | nil => exact h
  | cons a rest ih =>
    have hfirst := h.step hsound (a := a) fun k m ha => hadded k m (ha ▸ List.mem_cons_self)
    exact ih hfirst.1 (Journey.step_sound a hsound) fun k m hk =>
      hadded k m (List.mem_cons_of_mem a hk)

theorem Tended.page_step {j : Journey κ σ β} (h : V.Tended j) (hsound : j.nav.Sound j.root)
    (a : Step κ σ β) {i : Nat} {m : MenuPage} (hm : V.page j.nav i = some m) :
    ∃ m', V.page (j.step a).nav i = some m' ∧ m'.mark = j.nextMark i m.mark a := by
  have hmark : V.marks j.nav i = some m.mark := by
    unfold MenuView.marks
    rw [hm, Option.map_some]
  have hnext : V.marks (j.step a).nav i = some (j.nextMark i m.mark a) := by
    cases a with
    | add k => exact marks_add hmark k
    | _ => exact (h.step hsound fun k m hk => by cases hk).2 i _ hmark
  obtain ⟨m', hm', hnext⟩ := Option.map_eq_some_iff.mp hnext
  exact ⟨m', hm', hnext⟩

theorem page_countable (V : MenuView κ σ β) (n : Navigator κ) (i : Nat) (m : MenuPage) :
    V.countable.page n i = some m ↔ V.page n i = some m ∧ m.items.length ≤ 65535 := by
  unfold page
  cases n.pages[i]? with
  | none => simp
  | some k => simp [countable, Option.filter_eq_some_iff]

/-- After any run, a step moves the highlight of a menu page only if it is a tick and the page is at the
top; it then goes to the entry that the knob has turned to, at most to either end. The window of an open
page is that of its entries. Whatever becomes of its drawing, entering a page leaves the highlight where it
is, in a window for the entries and the display that counts as drawn. -/
theorem highlight_of_run (V : MenuView κ σ β) (p : Panel σ β) (steps : List (Step κ σ β))
    (hadded : ∀ k m, .add k ∈ steps → V.menu k = some m → m.window.current ≤ m.items.length - 1) :
    let j := steps.foldl Journey.step (⟨{}, p, none⟩ : Journey κ σ β)
    (∀ i m, V.page j.nav i = some m → m.items.length ≤ 65535 →
      m.window.current ≤ m.items.length - 1 ∧
      (i ∈ j.nav.stack → m.window.rows = m.items.length ∧ m.window.InBounds ∧
        m.window.startChanged = false ∧ m.window.currentChanged = false) ∧
      ∀ a : Step κ σ β, ∃ m', V.page (j.step a).nav i = some m' ∧ m'.items = m.items ∧
        (a = .tick → j.nav.active = some i → (m'.window.current : Int) =
          Number.clamp 0 (m.items.length - 1) (m.window.current + j.panel.poll.events.detents)) ∧
        ((a = .tick → j.nav.active ≠ some i) → m'.window.current = m.window.current)) ∧
    ∀ (m : MenuPage) (q : Panel σ β), m.items.length ≤ 65535 →
      m.window.current ≤ m.items.length - 1 →
        let w := (MenuPage.enter.after (m, q)).1.window
        (MenuPage.enter.after (m, q)).1 = { m with window := w } ∧
          w.current = m.window.current ∧ w.rows = m.items.length ∧
          w.capacity = q.renderer.visibleLines ∧ w.InBounds ∧
          w.startChanged = false ∧ w.currentChanged = false := by
  intro j
  have hempty : V.countable.Tended (⟨{}, p, none⟩ : Journey κ σ β) := by
    refine tended_iff.mpr ⟨fun i m hm => ?_, fun i hi => ?_⟩
    · cases hm
    · cases hi
  have hj : V.countable.Tended j := tended_of_run hempty Navigator.Sound.empty fun k m hk hm => by
    obtain ⟨hmenu, hlength⟩ := Option.filter_eq_some_iff.mp hm
    exact ⟨of_decide_eq_true hlength, hadded k m hk hmenu⟩
  have hsound : j.nav.Sound j.root := Journey.run_sound steps Navigator.Sound.empty
  refine ⟨fun i m hm hlength => ?_, fun m q hlength hcurrent => ?_⟩
  · have hpage := (V.page_countable j.nav i m).mpr ⟨hm, hlength⟩
    obtain ⟨hrange, hshown⟩ := tended_iff.mp hj
    refine ⟨(hrange i m hpage).current_le, fun hopen => ?_, fun a => ?_⟩
    · have hm := hshown i hopen m hpage
      exact ⟨hm.rows, hm.restored.sound.bounds, hm.restored.unchanged⟩
    · obtain ⟨m', hm', hmark⟩ := hj.page_step hsound a hpage
      have hitems : m'.items = m.items :=
        (congrArg MenuPage.Mark.items hmark).trans (Journey.nextMark_items m.mark a)
      refine ⟨m', ((V.page_countable _ i m').mp hm').1, hitems, fun htick hactive => ?_,
        fun hstill => ?_⟩
      · rw [htick, Journey.nextMark_turned _ hactive] at hmark
        have hcurrent := congrArg MenuPage.Mark.current hmark
        exact (congrArg Int.ofNat hcurrent).trans (Int.toNat_of_nonneg (Int.le_max_left _ _))
      · rw [Journey.nextMark_still _ hstill] at hmark
        exact congrArg MenuPage.Mark.current hmark
  · have hrange : m.InRange := ⟨hlength, hcurrent⟩
    have hrestored := m.enteredWindow_restored q
    rw [MenuPage.after_enter]
    exact ⟨rfl, MenuPage.enteredWindow_current hrange q, MenuPage.enteredWindow_rows hrange q,
      m.enteredWindow_capacity q, hrestored.sound.bounds, hrestored.unchanged⟩

/-- Both menus, on a display that fails whatever it is asked for. -/
def blankPanel : Panel Recorder CommandQueue :=
  Panel.ofDisplay { PanelSession.fourLines with faults := { fails := fun _ => true } } { capacity := 2 }

/-- The knob turns to the second entry of the first menu, and then the second menu is entered. -/
def excursion : List (Step AnyPage Recorder CommandQueue) :=
  PanelSession.twoMenus.map .add ++
    [.start 0, .panel fun p => { p with lcd := p.lcd.feed 0 4 }, .tick, .enter 1]

theorem highlight_kept_on_return :
    let menus := AnyPage.menus Recorder CommandQueue
    let j := excursion.foldl Journey.step ⟨{}, blankPanel, none⟩
    j.nav.stack = [1, 0] ∧ ∃ m, menus.page (j.step .back).nav 0 = some m ∧ m.window.current = 1 := by
  intro menus j
  have hadded : ∀ k m, .add k ∈ excursion → menus.menu k = some m →
      m.window.current ≤ m.items.length - 1 := by
    intro k m hk hm
    have hmenu : k ∈ PanelSession.twoMenus := by simpa [excursion] using hk
    simp only [PanelSession.twoMenus, List.mem_cons, List.not_mem_nil, or_false] at hmenu
    rcases hmenu with rfl | rfl
    · cases hm
      exact Nat.zero_le _
    · cases hm
      exact Nat.zero_le _
  obtain ⟨hpages, -⟩ := highlight_of_run menus blankPanel excursion hadded
  obtain ⟨m, hm, hlength, hcurrent⟩ : ∃ m, menus.page j.nav 0 = some m ∧
      m.items.length ≤ 65535 ∧ m.window.current = 1 :=
    ⟨_, rfl, by decide +kernel, by decide +kernel⟩
  obtain ⟨m', hm', -, -, hstill⟩ := (hpages 0 m hm hlength).2.2 .back
  have hkept : m'.window.current = m.window.current := hstill fun hback => by cases hback
  exact ⟨by decide +kernel, m', hm', hkept.trans hcurrent⟩

end MenuView

end FrontPanel
