import FrontPanel.Proofs.Page.Stack

/-!
# When a page is entered

An operation that brings a page up runs the hook of that page once, after the stack has changed, and no
other hook. An operation that is refused runs none and changes nothing.
-/

namespace FrontPanel

set_option autoImplicit false

open FrontPanel.Action

/-- A page that counts how often it is entered. -/
structure Watched (κ : Type) where
  page : κ
  entries : Nat := 0

namespace Watched

variable {κ σ β : Type}

def within {α : Type} (x : Action PanelError (κ × Panel σ β) α) :
    Action PanelError (Watched κ × Panel σ β) α :=
  Action.within (fun (w, p) => (w.page, p)) (fun (k, p) (w, _) => ({ w with page := k }, p)) x

def enter [Page κ σ β] : Action PanelError (Watched κ × Panel σ β) Unit := do
  modify fun (w, p) => ({ w with entries := w.entries + 1 }, p)
  within Page.enter

instance [Page κ σ β] : Page (Watched κ) σ β := ⟨enter, within Page.tick⟩

variable (w : Watched κ) (p : Panel σ β)

theorem entries_within {α : Type} (x : Action PanelError (κ × Panel σ β) α) :
    ((within x).after (w, p)).1.entries = w.entries := by
  unfold within
  rw [after_within]

variable [Page κ σ β]

theorem entries_tick : ((Page.tick : Action _ _ Transition).after (w, p)).1.entries = w.entries :=
  entries_within w p Page.tick

theorem entries_enter : ((Page.enter : Action _ _ Unit).after (w, p)).1.entries = w.entries + 1 := by
  have hrun : (enter : Action PanelError (Watched κ × Panel σ β) Unit) (w, p) =
      within Page.enter ({ w with entries := w.entries + 1 }, p) := bind_of_ok rfl
  exact (congrArg (fun s => s.1.entries) (after_of_eq hrun)).trans (entries_within _ p Page.enter)

end Watched

namespace Navigator

variable {κ σ β : Type}

/-- How often the page with this number was entered. -/
def entries (n : Navigator (Watched κ)) (page : Nat) : Nat := n.pages[page]?.elim 0 Watched.entries

/-- Nothing was opened, closed or entered. -/
structure Rests (n n' : Navigator (Watched κ)) : Prop where
  stack : n'.stack = n.stack
  entries : n'.entries = n.entries

/-- The page that is active in the end was entered once, and no other page. -/
def Enters (n n' : Navigator (Watched κ)) (page : Nat) : Prop :=
  n'.active = some page ∧ ∀ other, n'.entries other = n.entries other + if other = page then 1 else 0

/-- No hook was run and the stack is as it was, or the page that is active in the end was entered. -/
def EntersOnce (n n' : Navigator (Watched κ)) : Prop := Rests n n' ∨ ∃ page, Enters n n' page

theorem Rests.enters {n m n' : Navigator (Watched κ)} {page : Nat} (h : Rests n m)
    (h' : Enters m n' page) : Enters n n' page :=
  ⟨h'.1, fun other => h.entries ▸ h'.2 other⟩

theorem Rests.entersOnce {n m n' : Navigator (Watched κ)} (h : Rests n m) (h' : EntersOnce m n') :
    EntersOnce n n' :=
  h'.imp (fun hrests => ⟨hrests.stack.trans h.stack, hrests.entries.trans h.entries⟩)
    fun ⟨page, henters⟩ => ⟨page, h.enters henters⟩

section Hooks

variable {n : Navigator (Watched κ)} {page : Nat} {w : Watched κ}

theorem entries_eq (hpage : n.pages[page]? = some w) : n.entries page = w.entries := by
  unfold entries
  rw [hpage]
  rfl

theorem entries_set (hpage : n.pages[page]? = some w) (w' : Watched κ) (other : Nat) :
    entries { n with pages := n.pages.set page w' } other =
      if other = page then w'.entries else n.entries other := by
  have hlt : page < n.pages.length := (List.getElem?_eq_some_iff.mp hpage).1
  unfold entries
  by_cases hsame : other = page
  · subst hsame
    simp [hlt]
  · rw [if_neg hsame, List.getElem?_set_ne fun h => hsame h.symm]

end Hooks

variable [Page κ σ β]

section Operations

variable {root : Option Nat} {n : Navigator (Watched κ)} {p : Panel σ β}

theorem enterActive_enters (h : n.Sound root) (hne : n.stack ≠ []) :
    ((enterActive (κ := Watched κ)).after (n, p)).1.stack = n.stack ∧
      ∃ page, Enters n ((enterActive (κ := Watched κ)).after (n, p)).1 page := by
  obtain ⟨page, below, hstack⟩ := List.exists_cons_of_ne_nil hne
  have hactive : n.active = some page := congrArg List.head? hstack
  have hlt : page < n.pages.length := h.added page (hstack ▸ List.mem_cons_self)
  have hpage : n.pages[page]? = some n.pages[page] := List.getElem?_eq_getElem hlt
  rw [after_of_eq (enterActive_of_active hactive), after_onPage hpage]
  refine ⟨rfl, page, hactive, fun other => ?_⟩
  rw [entries_set hpage, Watched.entries_enter]
  by_cases hsame : other = page
  · rw [if_pos hsame, if_pos hsame, hsame, entries_eq hpage]
  · rw [if_neg hsame, if_neg hsame, Nat.add_zero]

section Brought

variable {x : Action PanelError (Navigator (Watched κ) × Panel σ β) Unit}
  {s : Navigator (Watched κ) × Panel σ β} {stack : List Nat}

/-- The stack is changed first, and the page that is then active is entered. -/
theorem enters_of_eq (hrun : x s = enterActive ({ s.1 with stack := stack }, s.2))
    (h : Sound root { s.1 with stack := stack }) (hne : stack ≠ []) :
    (x.after s).1.stack = stack ∧ ∃ page, Enters s.1 (x.after s).1 page := by
  rw [after_of_eq hrun]
  exact enterActive_enters h hne

omit [Page κ σ β] in
theorem entersOnce_of_eq (h : x.after s = s) : EntersOnce s.1 (x.after s).1 := by
  rw [h]
  exact .inl ⟨rfl, rfl⟩

end Brought

variable {s : Navigator (Watched κ) × Panel σ β}

theorem start_entersOnce (hs : SoundOn root s) (page : Nat) :
    EntersOnce s.1 ((start page).after s).1 := by
  rcases Nat.lt_or_ge page s.1.pages.length with hadded | hunknown
  · exact .inr (enters_of_eq (start_of_added hadded) (Sound.only hs hadded) (List.cons_ne_nil _ _)).2
  · exact entersOnce_of_eq (after_of_error (start_of_unknown hunknown))

theorem enter_entersOnce (hs : SoundOn root s) (page : Nat) :
    EntersOnce s.1 ((enter page).after s).1 := by
  rcases enter_cases hs page with hrun | hrun | ⟨hadded, hclosed, hrun⟩
  · exact entersOnce_of_eq (after_of_error hrun)
  · exact entersOnce_of_eq (after_of_error hrun)
  · exact .inr (enters_of_eq hrun (Sound.push hs hadded hclosed) (List.cons_ne_nil _ _)).2

theorem back_entersOnce (hs : SoundOn root s) : EntersOnce s.1 (back.after s).1 := by
  by_cases hroot : s.1.depth ≤ 1
  · exact entersOnce_of_eq (after_of_ok (back_of_root hroot))
  · have hne := tail_ne_nil hroot
    exact .inr (enters_of_eq (back_of_deep hroot) (Sound.suffix hs (List.tail_suffix _) hne) hne).2

theorem backTo_enters (hs : SoundOn root s) {page : Nat} (hopen : page ∈ s.1.stack) :
    ((backTo page).after s).1.stack = s.1.stack.dropWhile (· != page) ∧
      Enters s.1 ((backTo page).after s).1 page := by
  have hne := dropWhile_ne_nil hopen
  obtain ⟨hstack, other, hactive, hentries⟩ := enters_of_eq (backTo_of_open hopen)
    (Sound.suffix hs (List.dropWhile_suffix _) hne) hne
  have hhead : (s.1.stack.dropWhile (· != page)).head? = some other := hstack ▸ hactive
  obtain rfl : page = other := Option.some.inj ((head?_dropWhile hopen).symm.trans hhead)
  exact ⟨hstack, hactive, hentries⟩

theorem backTo_entersOnce (hs : SoundOn root s) (page : Nat) :
    EntersOnce s.1 ((backTo page).after s).1 := by
  by_cases hopen : page ∈ s.1.stack
  · exact .inr ⟨page, (backTo_enters hs hopen).2⟩
  · exact entersOnce_of_eq (after_of_error (backTo_of_closed hopen))

/-- A page that is open is not entered through a transition but returned to, and the transition fails. -/
theorem follow_of_open {page : Nat} (hopen : page ∈ s.1.stack) :
    follow (.enter page) s = (backTo page >>= fun _ => throw (.navigation .cycle)) s := by
  change (if s.1.isOpen page = true then _ else _ : Action _ _ Unit) s = _
  rw [if_pos (isOpen_iff.mpr hopen)]

theorem follow_of_closed {page : Nat} (hclosed : page ∉ s.1.stack) :
    follow (.enter page) s = enter page s := by
  change (if s.1.isOpen page = true then _ else _ : Action _ _ Unit) s = _
  rw [if_neg fun hopen => hclosed (isOpen_iff.mp hopen)]

theorem follow_entersOnce (hs : SoundOn root s) (transition : Transition) :
    EntersOnce s.1 ((follow transition).after s).1 := by
  cases transition with
  | stay => exact .inl ⟨rfl, rfl⟩
  | back => exact back_entersOnce hs
  | enter page =>
    by_cases hopen : page ∈ s.1.stack
    · rw [after_of_eq (follow_of_open hopen), after_bind fun _ _ => rfl]
      exact backTo_entersOnce hs page
    · rw [after_of_eq (follow_of_closed hopen)]
      exact enter_entersOnce hs page

end Operations

section Ticks

variable [Display σ] {root : Option Nat} {n : Navigator (Watched κ)} {p : Panel σ β} {active : Nat}

theorem tick_of_active (hactive : n.active = some active) :
    tick (n, p) = (onPage active Page.tick .stay >>= fun transition => do
      follow transition
      return transition : Action _ _ _) (n, p.poll) := by
  unfold tick
  refine (bind_of_ok (t := (n, p)) rfl).trans ?_
  simp only [hactive]
  exact bind_of_ok rfl

theorem hook_rests (h : n.Sound root) (hactive : n.active = some active) :
    Rests n ((onPage active Page.tick Transition.stay).after (n, p.poll)).1 := by
  have hlt : active < n.pages.length := h.added active (List.mem_of_head? hactive)
  have hpage : n.pages[active]? = some n.pages[active] := List.getElem?_eq_getElem hlt
  rw [after_onPage hpage]
  refine ⟨rfl, funext fun other => ?_⟩
  rw [entries_set hpage, Watched.entries_tick]
  by_cases hsame : other = active
  · rw [if_pos hsame, hsame, entries_eq hpage]
  · rw [if_neg hsame]

theorem tick_entersOnce (h : n.Sound root) (p : Panel σ β) :
    EntersOnce n (tick.after (n, p)).1 := by
  cases hactive : n.active with
  | none =>
    rw [after_of_ok (tick_of_none hactive)]
    exact .inl ⟨rfl, rfl⟩
  | some active =>
    have hrests := hook_rests (p := p) h hactive
    have hsound : SoundOn root ((onPage active Page.tick Transition.stay).after (n, p.poll)) :=
      (onPage_sound active _ _).after h
    rw [after_of_eq (tick_of_active hactive)]
    cases hrun : (onPage active Page.tick .stay : Action _ _ Transition) (n, p.poll) with
    | error e t =>
      rw [after_of_error hrun] at hrests
      rw [after_of_error (bind_of_error hrun)]
      exact .inl hrests
    | ok transition t =>
      rw [after_of_ok hrun] at hrests hsound
      rw [after_of_eq (bind_of_ok hrun), after_bind fun _ _ => rfl]
      exact hrests.entersOnce (follow_entersOnce hsound transition)

/-- The error of a request for a page that is open: that of the hook, if the hook fails. -/
def refusal : Except PanelError Unit → PanelError
  | .ok _ => .navigation .cycle
  | .error e => e

theorem outcome_refused {τ : Type} (x : Action PanelError τ Unit) (t : τ) :
    (x >>= fun _ => (throw (.navigation .cycle) : Action PanelError τ Unit)).outcome t =
      .error (refusal (x.outcome t)) := by
  cases hrun : x t with
  | ok a t' =>
    rw [outcome_of_eq (bind_of_ok hrun)]
    simp only [Action.outcome, hrun]
    rfl
  | error e t' =>
    rw [outcome_of_error (bind_of_error hrun), outcome_of_error hrun]
    rfl

theorem tick_of_open (h : n.Sound root) (hactive : n.active = some active) {page : Nat}
    (hhook : (onPage active Page.tick .stay).outcome (n, p.poll) = .ok (Transition.enter page))
    (hopen : page ∈ n.stack) :
    let s := (onPage active Page.tick Transition.stay).after (n, p.poll)
    (tick.after (n, p)).1.stack = n.stack.dropWhile (· != page) ∧
      Enters n (tick.after (n, p)).1 page ∧
      ∃ w, s.1.pages[page]? = some w ∧
        tick.outcome (n, p) = .error (refusal ((Page.enter (κ := Watched κ)).outcome (w, s.2))) := by
  intro s
  have hrests : Rests n s.1 := hook_rests h hactive
  have hsound : SoundOn root s := (onPage_sound active _ _).after h
  have hopen' : page ∈ s.1.stack := hrests.stack ▸ hopen
  have hlt : page < s.1.pages.length := hsound.added page hopen'
  have hrun : (tick : Action _ _ Transition) (n, p) =
      (follow (.enter page) >>= fun _ => pure (.enter page) : Action _ _ Transition) s :=
    (tick_of_active hactive).trans (bind_of_ok (eq_ok_of_outcome hhook))
  have hfollow : (follow (.enter page)).outcome s =
      .error (refusal ((Page.enter (κ := Watched κ)).outcome (s.1.pages[page], s.2))) := by
    let unwound : Navigator (Watched κ) :=
      { s.1 with stack := s.1.stack.dropWhile (· != page) }
    have hunwound : unwound.active = some page := head?_dropWhile hopen'
    rw [outcome_of_eq (follow_of_open hopen'), outcome_refused,
      outcome_of_eq (backTo_of_open hopen'), outcome_enterActive hunwound hlt]
  rw [after_of_eq hrun, after_bind fun _ _ => rfl, after_of_eq (follow_of_open hopen'),
    after_bind fun _ _ => rfl]
  obtain ⟨hstack, henters⟩ := backTo_enters hsound hopen'
  refine ⟨hstack.trans (by rw [hrests.stack]), hrests.enters henters, s.1.pages[page],
    List.getElem?_eq_getElem hlt, ?_⟩
  rw [outcome_of_eq hrun, outcome_of_error (bind_of_error (eq_error_of_outcome hfollow))]

theorem tick_of_failure (h : n.Sound root) (hactive : n.active = some active) {e : PanelError}
    (hhook : (onPage active Page.tick Transition.stay).outcome (n, p.poll) = .error e) :
    tick.outcome (n, p) = .error e ∧ Rests n (tick.after (n, p)).1 := by
  have hrun : (tick : Action _ _ Transition) (n, p) =
      .error e ((onPage active Page.tick Transition.stay).after (n, p.poll)) :=
    (tick_of_active hactive).trans (bind_of_error (eq_error_of_outcome hhook))
  rw [outcome_of_error hrun, after_of_error hrun]
  exact ⟨rfl, hook_rests h hactive⟩

end Ticks

/-- After any run, an operation enters a page at most once: the one that is active when it ends, and
always if it changes the stack. What is refused changes nothing. A page that asks for a page that is open
leads back to it, and the request fails; a page whose own hook fails stays where it is. -/
theorem entries_of_run [Display σ] (p : Panel σ β) (steps : List (Step (Watched κ) σ β)) :
    let j := steps.foldl Journey.step (⟨{}, p, none⟩ : Journey (Watched κ) σ β)
    let s := (j.nav, j.panel)
    let n := j.nav
    ((∀ page, EntersOnce n ((start page).after s).1) ∧
      (∀ page, EntersOnce n ((enter page).after s).1) ∧
      EntersOnce n (back.after s).1 ∧
      (∀ page, EntersOnce n ((backTo page).after s).1) ∧
      EntersOnce n (tick.after s).1) ∧
    ((∀ page, n.pages.length ≤ page → start page s = .error (.navigation .unknownPage) s ∧
        enter page s = .error (.navigation .unknownPage) s) ∧
      (∀ page, page ∉ n.stack → backTo page s = .error (.navigation .unknownPage) s) ∧
      (∀ page, page ∈ n.stack → enter page s = .error (.navigation .cycle) s) ∧
      (n.depth ≤ 1 → back s = .ok () s)) ∧
    ∀ active, n.active = some active →
      let hook : Action PanelError _ Transition := onPage active Page.tick .stay
      let ticked := hook.after (n, j.panel.poll)
      (∀ page, hook.outcome (n, j.panel.poll) = .ok (.enter page) → page ∈ n.stack →
        (tick.after s).1.stack = n.stack.dropWhile (· != page) ∧ Enters n (tick.after s).1 page ∧
        ∃ w, ticked.1.pages[page]? = some w ∧
          tick.outcome s =
            .error (refusal ((Page.enter (κ := Watched κ)).outcome (w, ticked.2)))) ∧
      ∀ e, hook.outcome (n, j.panel.poll) = .error e →
        tick.outcome s = .error e ∧ Rests n (tick.after s).1 := by
  intro j s n
  have hn : n.Sound j.root := Journey.run_sound steps Sound.empty
  have hs : SoundOn j.root s := hn
  refine ⟨⟨start_entersOnce hs, enter_entersOnce hs, back_entersOnce hs, backTo_entersOnce hs,
    tick_entersOnce hn j.panel⟩, ⟨?_, ?_, ?_, ?_⟩, fun active hactive => ⟨?_, ?_⟩⟩
  · exact fun page hunknown => ⟨start_of_unknown hunknown, enter_of_unknown hunknown⟩
  · exact fun page hclosed => backTo_of_closed hclosed
  · exact fun page hopen => enter_of_open hs hopen
  · exact fun hroot => back_of_root hroot
  · exact fun page hhook hopen => tick_of_open hn hactive hhook hopen
  · exact fun e hhook => tick_of_failure hn hactive hhook

end Navigator

end FrontPanel
