import FrontPanel.Proofs.Page.Stack

/-!
# Entering settles a page

Whatever opens or closes pages enters the page that comes to the top. So what a page has from being entered
on, every open page has, however many hooks have failed.
-/

namespace FrontPanel.Navigator

set_option autoImplicit false

open FrontPanel.Action (Ensures Keeps)

variable {κ σ β : Type}

/-- `P` holds at every number, with the page that was added under it or none, and `Q` at those in
`opened`. -/
structure Holds (P Q : Nat → Option κ → Prop) (opened : List Nat) (n : Navigator κ) : Prop where
  all : ∀ i, P i n.pages[i]?
  opened : ∀ i ∈ opened, Q i n.pages[i]?

theorem getElem?_set_of_some {pages : List κ} {page : Nat} {k k' : κ} (hpage : pages[page]? = some k)
    (i : Nat) : (pages.set page k')[i]? = if i = page then some k' else pages[i]? := by
  have hlt : page < pages.length := (List.getElem?_eq_some_iff.mp hpage).1
  by_cases hsame : i = page
  · rw [if_pos hsame, hsame, List.getElem?_set_self hlt]
  · rw [if_neg hsame, List.getElem?_set_ne fun h => hsame h.symm]

namespace Holds

variable {P Q : Nat → Option κ → Prop} {opened fewer : List Nat} {n : Navigator κ}

theorem restack (h : Holds P Q opened n) (hfewer : fewer ⊆ opened) (stack : List Nat) :
    Holds P Q fewer { n with stack := stack } :=
  ⟨h.all, fun i hi => h.opened i (hfewer hi)⟩

/-- A page is replaced by one with `Q`. -/
theorem set {page : Nat} {k k' : κ} (hpage : n.pages[page]? = some k)
    (hweaken : ∀ i o, Q i o → P i o) (hall : ∀ i, i ≠ page → P i n.pages[i]?)
    (hopened : ∀ i ∈ opened, i ≠ page → Q i n.pages[i]?) (hk : Q page (some k')) :
    Holds P Q opened { n with pages := n.pages.set page k' } := by
  constructor
  · intro i
    change P i (n.pages.set page k')[i]?
    rw [getElem?_set_of_some hpage]
    by_cases hsame : i = page
    · rw [if_pos hsame, hsame]
      exact hweaken page _ hk
    · rw [if_neg hsame]
      exact hall i hsame
  · intro i hi
    change Q i (n.pages.set page k')[i]?
    rw [getElem?_set_of_some hpage]
    by_cases hsame : i = page
    · rw [if_pos hsame, hsame]
      exact hk
    · rw [if_neg hsame]
      exact hopened i hi hsame

end Holds

theorem onPage_ensures {α : Type} {n : Navigator κ} {p : Panel σ β} {page : Nat} {k : κ}
    (hpage : n.pages[page]? = some k) {hook : Action PanelError (κ × Panel σ β) α}
    {otherwise : α} {Q : α → Navigator κ × Panel σ β → Prop}
    {E : PanelError → Navigator κ × Panel σ β → Prop}
    (h : Ensures (· = (k, p)) hook
      (fun a s => Q a ({ n with pages := n.pages.set page s.1 }, s.2))
      fun e s => E e ({ n with pages := n.pages.set page s.1 }, s.2)) :
    Ensures (· = (n, p)) (onPage page hook otherwise) Q E := by
  rintro _ rfl
  have hx := h _ rfl
  simp only [onPage, hpage, Action.within]
  cases hr : hook (k, p) with
  | ok a s => simpa [hr] using hx
  | error e s => simpa [hr] using hx

variable {P Q : Nat → Option κ → Prop} {D : Panel σ β → Prop}

/-- `P` holds of every page, and `Q` of the open ones. -/
def Settled (P Q : Nat → Option κ → Prop) (D : Panel σ β → Prop)
    (s : Navigator κ × Panel σ β) : Prop :=
  Holds P Q s.1.stack s.1 ∧ D s.2

/-- As `Settled`, but the active page may still have to be entered. -/
def SettledBelow (P Q : Nat → Option κ → Prop) (D : Panel σ β → Prop)
    (s : Navigator κ × Panel σ β) : Prop :=
  Holds P Q s.1.stack.tail s.1 ∧ D s.2

theorem check_settled (page : Nat) : Keeps (Settled P Q D) (check page) := by
  unfold check
  refine Keeps.get_bind fun _ => ?_
  exact Keeps.ite (Keeps.throw _) (Keeps.pure _)

theorem push_settled (page : Nat) :
    Ensures (Settled P Q D) (push page) (fun _ => SettledBelow P Q D) fun _ => Settled P Q D := by
  unfold push
  refine Ensures.get_bind ?_
  rintro s hs
  refine Ensures.ite (fun _ => Ensures.throw fun _ ht => ht ▸ hs) fun _ => ?_
  refine Ensures.modified ?_
  rintro _ rfl
  exact ⟨hs.1.restack (List.Subset.refl _) _, hs.2⟩

variable [Page κ σ β]

/-- Entering a page with `P` leaves it with `Q`, also if it fails, and keeps `D` of the panel. -/
structure Settles (P Q : Nat → Option κ → Prop) (D : Panel σ β → Prop) : Prop where
  weaken : ∀ i o, Q i o → P i o
  missing : ∀ i, P i none → Q i none
  enter : ∀ i, Ensures (fun s => P i (some s.1) ∧ D s.2) (Page.enter (κ := κ))
    (fun _ s => Q i (some s.1) ∧ D s.2) fun _ s => Q i (some s.1) ∧ D s.2

namespace Settles

variable (h : Settles P Q D)
include h

theorem enterActive : Ensures (SettledBelow P Q D) (Navigator.enterActive (κ := κ))
    (fun _ => Settled P Q D) fun _ => Settled P Q D := by
  unfold Navigator.enterActive
  refine Ensures.get_bind ?_
  rintro ⟨n, p⟩ ⟨hbelow, hp⟩
  cases hstack : n.stack with
  | nil =>
    simp only [active, hstack, List.head?_nil]
    refine Ensures.pure ?_
    rintro _ rfl
    exact ⟨⟨hbelow.all, by simp [hstack]⟩, hp⟩
  | cons page below =>
    have hothers : ∀ i ∈ n.stack, i ≠ page → Q i n.pages[i]? := by
      intro i hi hne
      refine hbelow.opened i ?_
      rw [hstack] at hi ⊢
      exact (List.mem_cons.mp hi).resolve_left hne
    simp only [active, hstack, List.head?_cons]
    cases hpage : n.pages[page]? with
    | none =>
      rintro _ rfl
      simp only [onPage, hpage]
      refine ⟨⟨hbelow.all, fun i hi => ?_⟩, hp⟩
      by_cases hsame : i = page
      · have hall := hbelow.all i
        rw [hsame, hpage] at hall ⊢
        exact h.missing page hall
      · exact hothers i hi hsame
    | some k =>
      have hk : P page (some k) := hpage ▸ hbelow.all page
      have hentered : ∀ s : κ × Panel σ β, Q page (some s.1) ∧ D s.2 →
          Settled P Q D ({ n with pages := n.pages.set page s.1 }, s.2) := fun s hs =>
        ⟨.set hpage h.weaken (fun i _ => hbelow.all i) hothers hs.1, hs.2⟩
      refine onPage_ensures hpage ?_
      refine (h.enter page).mono ?_ (fun _ => hentered) fun _ => hentered
      rintro _ rfl
      exact ⟨hk, hp⟩

theorem back : Keeps (Settled P Q D) (Navigator.back (κ := κ)) := by
  unfold Navigator.back
  refine Ensures.get_bind ?_
  rintro s hs
  refine Ensures.ite (fun _ => Ensures.pure fun _ ht => ht ▸ hs) fun _ => ?_
  refine Ensures.bind (Q := fun _ => SettledBelow P Q D) ?_ fun _ => h.enterActive
  refine Ensures.modified ?_
  rintro _ rfl
  exact ⟨hs.1.restack ((List.tail_suffix _).trans (List.tail_suffix _)).subset _, hs.2⟩

theorem backTo (page : Nat) : Keeps (Settled P Q D) (Navigator.backTo (κ := κ) page) := by
  unfold Navigator.backTo
  refine Ensures.get_bind ?_
  rintro s hs
  refine Ensures.ite (fun _ => ?_) fun _ => Ensures.throw fun _ ht => ht ▸ hs
  refine Ensures.bind (Q := fun _ => SettledBelow P Q D) ?_ fun _ => h.enterActive
  refine Ensures.modified ?_
  rintro _ rfl
  exact ⟨hs.1.restack ((List.tail_suffix _).trans (List.dropWhile_suffix _)).subset _, hs.2⟩

/-- A page is put on top and entered. -/
theorem bring (page : Nat) :
    Keeps (Settled P Q D) (do push page; Navigator.enterActive (κ := κ)) :=
  Ensures.bind (push_settled page) fun _ => h.enterActive

theorem enterPage (page : Nat) : Keeps (Settled P Q D) (Navigator.enter (κ := κ) page) := by
  unfold Navigator.enter
  refine Keeps.bind (check_settled page) fun _ => ?_
  refine Keeps.get_bind fun _ => ?_
  exact Keeps.ite (Keeps.bind (Keeps.throw _) fun _ => h.bring page) (h.bring page)

theorem start (page : Nat) : Keeps (Settled P Q D) (Navigator.start (κ := κ) page) := by
  unfold Navigator.start
  refine Keeps.bind (check_settled page) fun _ => ?_
  refine Keeps.bind (Keeps.modify fun s hs => ?_) fun _ => h.bring page
  exact ⟨hs.1.restack (List.nil_subset _) _, hs.2⟩

theorem follow (answer : Transition) :
    Keeps (Settled P Q D) (Navigator.follow (κ := κ) answer) := by
  cases answer with
  | stay => exact Keeps.pure _
  | back => exact h.back
  | enter page =>
    refine Keeps.get_bind fun _ => ?_
    exact Keeps.ite (Keeps.bind (h.backTo page) fun _ => Keeps.throw _) (h.enterPage page)

theorem tick [Display σ] (hpoll : ∀ p, D p → D p.poll)
    (htick : ∀ i, Ensures (fun s => Q i (some s.1) ∧ D s.2) (Page.tick (κ := κ))
      (fun _ s => Q i (some s.1) ∧ D s.2) fun _ s => Q i (some s.1) ∧ D s.2) :
    Keeps (Settled P Q D) (Navigator.tick (κ := κ)) := by
  unfold Navigator.tick
  refine Ensures.get_bind ?_
  rintro ⟨n, p⟩ ⟨hn, hp⟩
  cases hactive : n.active with
  | none =>
    refine Ensures.pure ?_
    rintro _ rfl
    exact ⟨hn, hp⟩
  | some page =>
    refine Ensures.bind (Q := fun _ => (· = (n, p.poll))) (Ensures.modified fun s hs => by rw [hs])
      fun _ => ?_
    refine Ensures.bind (Q := fun _ => Settled P Q D) ?_ fun answer =>
      Ensures.bind (h.follow answer) fun _ => Ensures.pure fun _ hs => hs
    cases hpage : n.pages[page]? with
    | none =>
      rintro _ rfl
      simp only [onPage, hpage]
      exact ⟨hn, hpoll p hp⟩
    | some k =>
      have hticked : ∀ s : κ × Panel σ β, Q page (some s.1) ∧ D s.2 →
          Settled P Q D ({ n with pages := n.pages.set page s.1 }, s.2) := fun s hs =>
        ⟨.set hpage h.weaken (fun i _ => hn.all i) (fun i hi _ => hn.opened i hi) hs.1, hs.2⟩
      refine onPage_ensures hpage ?_
      refine (htick page).mono ?_ (fun _ => hticked) fun _ => hticked
      rintro _ rfl
      exact ⟨hpage ▸ hn.opened page (List.mem_of_head? hactive), hpoll p hp⟩

end Settles

namespace Journey

variable [Display σ]

theorem step_add (j : Journey κ σ β) (k : κ) :
    j.step (.add k) = j ∨
      j.step (.add k) = { j with nav := { j.nav with pages := j.nav.pages ++ [k] } } := by
  change { j with nav := (Navigator.add k).after j.nav } = j ∨
    { j with nav := (Navigator.add k).after j.nav } = _
  unfold Action.after Navigator.add
  by_cases hfull : Navigator.maxPages ≤ j.nav.pages.length
  · rw [if_pos hfull]
    exact .inl rfl
  · rw [if_neg hfull]
    exact .inr rfl

/-- Every open page has `R`. -/
def Opened (R : κ → Prop) (j : Journey κ σ β) : Prop :=
  Settled (fun _ _ => True) (fun _ o => ∀ k ∈ o, R k) (fun _ => True) (j.nav, j.panel)

variable {R : κ → Prop}
  (henter : ∀ (k : κ) (p : Panel σ β), R ((Page.enter (κ := κ)).after (k, p)).1)
  (htick : ∀ (k : κ) (p : Panel σ β), R k → R ((Page.tick (κ := κ)).after (k, p)).1)
include henter htick

theorem Opened.step {j : Journey κ σ β} (h : j.Opened R) (hsound : j.nav.Sound j.root)
    (a : Step κ σ β) : (j.step a).Opened R := by
  have hsettles : Settles (κ := κ) (fun _ _ => True) (fun _ o => ∀ k ∈ o, R k)
      fun _ : Panel σ β => True := by
    refine ⟨fun _ _ _ => trivial, fun _ _ => nofun, fun _ => Ensures.of_after ?_⟩
    rintro ⟨k, p⟩ -
    refine ⟨?_, trivial⟩
    rintro _ ⟨⟩
    exact henter k p
  cases a with
  | add k =>
    rcases j.step_add k with hstep | hstep
    · rw [hstep]
      exact h
    · rw [hstep]
      refine ⟨⟨fun _ => trivial, fun i hi => ?_⟩, trivial⟩
      -- the number of the new page is none of the open ones
      change ∀ k' ∈ (j.nav.pages ++ [k])[i]?, R k'
      rw [List.getElem?_append_left (hsound.added i hi)]
      exact h.1.opened i hi
  | start page => exact (hsettles.start page).after h
  | enter page => exact (hsettles.enterPage page).after h
  | back => exact hsettles.back.after h
  | backTo page => exact (hsettles.backTo page).after h
  | tick =>
    refine (hsettles.tick (fun _ _ => trivial) fun _ => Ensures.of_after ?_).after h
    rintro ⟨k, p⟩ ⟨hk, -⟩
    refine ⟨?_, trivial⟩
    rintro _ ⟨⟩
    exact htick k p (hk k rfl)
  | panel change => exact ⟨⟨h.1.all, h.1.opened⟩, trivial⟩

/-- What a page has from being entered on and keeps in its ticks, every open page has after any run. -/
theorem opened_of_run {j : Journey κ σ β} (h : j.Opened R) (hsound : j.nav.Sound j.root)
    (steps : List (Step κ σ β)) : (steps.foldl Journey.step j).Opened R := by
  induction steps generalizing j with
  | nil => exact h
  | cons a rest ih => exact ih (h.step henter htick hsound a) (Journey.step_sound a hsound)

end Journey

end FrontPanel.Navigator
