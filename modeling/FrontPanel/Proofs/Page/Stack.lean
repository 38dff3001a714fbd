import FrontPanel.Page.Navigator
import FrontPanel.Proofs.Action

/-!
# The stack of open pages

Whatever pages ask for and whichever of their hooks fail, a page is open at most once, only pages that
were added are open, and the page that was started last stays at the bottom.
-/

namespace FrontPanel.Navigator

set_option autoImplicit false

open FrontPanel.Action

variable {κ σ β : Type}

theorem isOpen_iff {n : Navigator κ} {page : Nat} : n.isOpen page = true ↔ page ∈ n.stack :=
  List.contains_iff_mem

/-- `root` is the page that was started last, if there was one. -/
structure Sound (root : Option Nat) (n : Navigator κ) : Prop where
  pages_le : n.pages.length ≤ maxPages
  nodup : n.stack.Nodup
  added : ∀ page, page ∈ n.stack → page < n.pages.length
  bottom : ∀ page, root = some page → n.stack.getLast? = some page

def SoundOn (root : Option Nat) (s : Navigator κ × Panel σ β) : Prop := s.1.Sound root

variable {root : Option Nat}

namespace Sound

theorem depth_le {n : Navigator κ} (h : n.Sound root) : n.depth ≤ n.pages.length := by
  have hsub : n.stack ⊆ List.range n.pages.length :=
    fun page hpage => List.mem_range.mpr (h.added page hpage)
  have hle := h.nodup.length_le_of_subset hsub
  rw [List.length_range] at hle
  exact hle

theorem stack_ne_nil {n : Navigator κ} {page : Nat} (h : n.Sound (some page)) : n.stack ≠ [] := by
  intro hnil
  have hbottom := h.bottom page rfl
  rw [hnil] at hbottom
  cases hbottom

theorem empty : Sound none ({} : Navigator κ) where
  pages_le := Nat.zero_le _
  nodup := List.nodup_nil
  added _ hpage := by cases hpage
  bottom _ hroot := by cases hroot

theorem withPages {n : Navigator κ} (h : n.Sound root) {pages : List κ}
    (hlength : pages.length = n.pages.length) : Sound root { n with pages := pages } where
  pages_le := hlength ▸ h.pages_le
  nodup := h.nodup
  added page hpage := hlength ▸ h.added page hpage
  bottom := h.bottom

theorem suffix {n : Navigator κ} (h : n.Sound root) {stack : List Nat} (hsuffix : stack <:+ n.stack)
    (hne : stack ≠ []) : Sound root { n with stack := stack } where
  pages_le := h.pages_le
  nodup := h.nodup.sublist hsuffix.sublist
  added page hpage := h.added page (hsuffix.subset hpage)
  bottom page hroot := by
    obtain ⟨closed, hclosed⟩ := hsuffix
    have hbottom := h.bottom page hroot
    rw [← hclosed, List.getLast?_append] at hbottom
    rw [List.getLast?_eq_some_getLast hne] at hbottom ⊢
    exact hbottom

theorem push {n : Navigator κ} (h : n.Sound root) {page : Nat} (hadded : page < n.pages.length)
    (hclosed : page ∉ n.stack) : Sound root { n with stack := page :: n.stack } where
  pages_le := h.pages_le
  nodup := List.nodup_cons.mpr ⟨hclosed, h.nodup⟩
  added other hother := by
    rcases List.mem_cons.mp hother with rfl | hother
    · exact hadded
    · exact h.added other hother
  bottom other hroot := by
    have hbottom := h.bottom other hroot
    obtain ⟨above, habove⟩ := List.getLast?_eq_some_iff.mp hbottom
    exact List.getLast?_eq_some_iff.mpr ⟨page :: above, congrArg (page :: ·) habove⟩

theorem only {n : Navigator κ} (h : n.Sound root) {page : Nat} (hadded : page < n.pages.length) :
    Sound (some page) { n with stack := [page] } where
  pages_le := h.pages_le
  nodup := List.nodup_cons.mpr ⟨List.not_mem_nil, List.nodup_nil⟩
  added _ hother := List.mem_singleton.mp hother ▸ hadded
  bottom _ hroot := hroot

/-- There is room for every page that is not open. -/
theorem room {n : Navigator κ} (h : n.Sound root) {page : Nat} (hadded : page < n.pages.length)
    (hclosed : page ∉ n.stack) : n.depth < maxPages := by
  have hdepth := (h.push hadded hclosed).depth_le
  have hpages := h.pages_le
  exact Nat.lt_of_lt_of_le (Nat.lt_of_succ_le hdepth) hpages

end Sound

theorem add_sound (page : κ) : Keeps (Sound root) (add page) := by
  intro n h
  unfold add
  by_cases hfull : maxPages ≤ n.pages.length
  · simp only [if_pos hfull]
    exact h
  · simp only [if_neg hfull]
    refine ⟨?_, h.nodup, ?_, h.bottom⟩
    · rw [List.length_append, List.length_singleton]
      omega
    · intro other hother
      have hlt := h.added other hother
      rw [List.length_append]
      omega

theorem onPage_sound {α : Type} (page : Nat) (hook : Action PanelError (κ × Panel σ β) α)
    (otherwise : α) : Keeps (SoundOn root) (onPage page hook otherwise) := by
  intro s hs
  obtain ⟨n, p⟩ := s
  have hset : ∀ t : κ × Panel σ β, SoundOn root ({ n with pages := n.pages.set page t.1 }, t.2) :=
    fun _ => Sound.withPages hs List.length_set
  cases hpage : n.pages[page]? with
  | none =>
    simp only [onPage, hpage]
    exact hs
  | some k =>
    simp only [onPage, hpage, within]
    cases hook (k, p) with
    | ok a t => exact hset t
    | error e t => exact hset t

section Hooks

variable {α : Type} {n : Navigator κ} {p : Panel σ β} {page : Nat} {k : κ}
  {hook : Action PanelError (κ × Panel σ β) α} {otherwise : α}

theorem after_onPage (hpage : n.pages[page]? = some k) :
    (onPage page hook otherwise).after (n, p) =
      ({ n with pages := n.pages.set page (hook.after (k, p)).1 }, (hook.after (k, p)).2) := by
  simp only [Action.after, onPage, hpage, within]
  cases hook (k, p) <;> rfl

theorem outcome_onPage (hpage : n.pages[page]? = some k) :
    (onPage page hook otherwise).outcome (n, p) = hook.outcome (k, p) := by
  simp only [Action.outcome, onPage, hpage, within]
  cases hook (k, p) <;> rfl

end Hooks

variable [Page κ σ β]

theorem enterActive_of_active {n : Navigator κ} {p : Panel σ β} {page : Nat}
    (hactive : n.active = some page) : enterActive (n, p) = onPage page Page.enter () (n, p) := by
  unfold enterActive
  apply (bind_of_ok (t := (n, p)) rfl).trans
  simp only [hactive]

theorem enterActive_sound : Keeps (SoundOn root) (enterActive (κ := κ) (σ := σ) (β := β)) := by
  unfold enterActive
  apply Keeps.get_bind
  intro s
  cases s.1.active with
  | none => exact Keeps.pure _
  | some page => exact onPage_sound page _ _

omit [Page κ σ β] in
theorem tail_ne_nil {n : Navigator κ} (h : ¬n.depth ≤ 1) : n.stack.tail ≠ [] := by
  intro hnil
  have hlength : n.stack.tail.length = 0 := congrArg List.length hnil
  rw [List.length_tail] at hlength
  unfold depth at h
  omega

theorem back_sound : Keeps (SoundOn root) (back (κ := κ) (σ := σ) (β := β)) := by
  unfold back
  apply Ensures.get_bind
  intro s hs
  apply Ensures.ite
  · intro _
    exact Ensures.pure fun t ht => ht ▸ hs
  · intro hdeep
    refine Ensures.bind (Q := fun _ => SoundOn root) ?_ fun _ => enterActive_sound
    apply Ensures.modified
    rintro t rfl
    exact hs.suffix (List.tail_suffix _) (tail_ne_nil hdeep)

theorem head?_dropWhile {page : Nat} {stack : List Nat} (h : page ∈ stack) :
    (stack.dropWhile (· != page)).head? = some page := by
  induction stack with
  | nil => cases h
  | cons other rest ih =>
    by_cases hsame : other = page
    · rw [List.dropWhile_cons_of_neg (by simp [hsame]), hsame]
      rfl
    · rw [List.dropWhile_cons_of_pos (by simp [hsame])]
      exact ih ((List.mem_cons.mp h).resolve_left fun heq => hsame heq.symm)

theorem dropWhile_ne_nil {page : Nat} {stack : List Nat} (h : page ∈ stack) :
    stack.dropWhile (· != page) ≠ [] := by
  intro hnil
  have hhead := head?_dropWhile h
  rw [hnil] at hhead
  cases hhead

theorem backTo_sound (page : Nat) :
    Keeps (SoundOn root) (backTo (κ := κ) (σ := σ) (β := β) page) := by
  unfold backTo
  apply Ensures.get_bind
  intro s hs
  apply Ensures.ite
  · intro hopen
    refine Ensures.bind (Q := fun _ => SoundOn root) ?_ fun _ => enterActive_sound
    apply Ensures.modified
    rintro t rfl
    exact hs.suffix (List.dropWhile_suffix _) (dropWhile_ne_nil (isOpen_iff.mp hopen))
  · intro _
    exact Ensures.throw fun t ht => ht ▸ hs

section Open

variable {s : Navigator κ × Panel σ β} {page : Nat}

omit [Page κ σ β] in
theorem check_of_unknown (h : s.1.pages.length ≤ page) :
    check page s = .error (.navigation .unknownPage) s := by
  change (if s.1.pages.length ≤ page then throw _ else pure ⟨⟩ : Action _ _ PUnit) s = _
  rw [if_pos h]
  rfl

omit [Page κ σ β] in
theorem check_of_added (h : page < s.1.pages.length) : check page s = .ok ⟨⟩ s := by
  change (if s.1.pages.length ≤ page then throw _ else pure ⟨⟩ : Action _ _ PUnit) s = _
  rw [if_neg (Nat.not_le.mpr h)]
  rfl

omit [Page κ σ β] in
theorem push_of_room (h : s.1.depth < maxPages) :
    push page s = .ok ⟨⟩ ({ s.1 with stack := page :: s.1.stack }, s.2) := by
  change (if maxPages ≤ s.1.depth then throw _ else modify _ : Action _ _ PUnit) s = _
  rw [if_neg (Nat.not_le.mpr h)]
  rfl

theorem start_of_unknown (h : s.1.pages.length ≤ page) :
    start page s = .error (.navigation .unknownPage) s :=
  bind_of_error (check_of_unknown h)

theorem start_of_added (h : page < s.1.pages.length) :
    start page s = enterActive ({ s.1 with stack := [page] }, s.2) := by
  let closed : Navigator κ × Panel σ β := ({ s.1 with stack := [] }, s.2)
  have hroom : closed.1.depth < maxPages := Nat.zero_lt_succ 7
  unfold start
  rw [bind_of_ok (check_of_added h)]
  apply (bind_of_ok (t := closed) rfl).trans
  exact bind_of_ok (push_of_room hroom)

theorem enter_of_unknown (h : s.1.pages.length ≤ page) :
    enter page s = .error (.navigation .unknownPage) s :=
  bind_of_error (check_of_unknown h)

theorem enter_of_open (hs : SoundOn root s) (h : page ∈ s.1.stack) :
    enter page s = .error (.navigation .cycle) s := by
  unfold enter
  rw [bind_of_ok (check_of_added (hs.added page h))]
  change (if s.1.isOpen page = true then throw _ else _ : Action _ _ PUnit) s = _
  rw [if_pos (isOpen_iff.mpr h)]
  rfl

theorem enter_of_closed (hs : SoundOn root s) (hadded : page < s.1.pages.length)
    (hclosed : page ∉ s.1.stack) :
    enter page s = enterActive ({ s.1 with stack := page :: s.1.stack }, s.2) := by
  unfold enter
  rw [bind_of_ok (check_of_added hadded)]
  change (if s.1.isOpen page = true then throw _ else _ : Action _ _ PUnit) s = _
  rw [if_neg fun hopen => hclosed (isOpen_iff.mp hopen)]
  exact bind_of_ok (push_of_room (Sound.room hs hadded hclosed))

theorem enter_cases (hs : SoundOn root s) (page : Nat) :
    enter page s = .error (.navigation .unknownPage) s ∨
      enter page s = .error (.navigation .cycle) s ∨
      page < s.1.pages.length ∧ page ∉ s.1.stack ∧
        enter page s = enterActive ({ s.1 with stack := page :: s.1.stack }, s.2) := by
  rcases Nat.lt_or_ge page s.1.pages.length with hadded | hunknown
  · by_cases hopen : page ∈ s.1.stack
    · exact .inr (.inl (enter_of_open hs hopen))
    · exact .inr (.inr ⟨hadded, hopen, enter_of_closed hs hadded hopen⟩)
  · exact .inl (enter_of_unknown hunknown)

theorem back_of_root (h : s.1.depth ≤ 1) : back s = .ok () s := by
  change (if s.1.depth ≤ 1 then pure () else _ : Action _ _ Unit) s = _
  rw [if_pos h]
  rfl

theorem back_of_deep (h : ¬s.1.depth ≤ 1) :
    back s = enterActive ({ s.1 with stack := s.1.stack.tail }, s.2) := by
  change (if s.1.depth ≤ 1 then pure () else _ : Action _ _ Unit) s = _
  rw [if_neg h]
  rfl

theorem backTo_of_closed (h : page ∉ s.1.stack) :
    backTo page s = .error (.navigation .unknownPage) s := by
  change (if s.1.isOpen page = true then _ else throw _ : Action _ _ Unit) s = _
  rw [if_neg fun hopen => h (isOpen_iff.mp hopen)]
  rfl

theorem backTo_of_open (h : page ∈ s.1.stack) :
    backTo page s = enterActive ({ s.1 with stack := s.1.stack.dropWhile (· != page) }, s.2) := by
  change (if s.1.isOpen page = true then _ else throw _ : Action _ _ Unit) s = _
  rw [if_pos (isOpen_iff.mpr h)]
  rfl

end Open

theorem enter_sound (page : Nat) :
    Keeps (SoundOn root) (enter (κ := κ) (σ := σ) (β := β) page) := by
  intro s hs
  rcases enter_cases hs page with hrun | hrun | ⟨hadded, hclosed, hrun⟩
  · rw [hrun]
    exact hs
  · rw [hrun]
    exact hs
  · rw [hrun]
    exact enterActive_sound _ (Sound.push hs hadded hclosed)

theorem start_sound {page : Nat} {s : Navigator κ × Panel σ β} (hs : SoundOn root s) :
    SoundOn (if page < s.1.pages.length then some page else root) ((start page).after s) := by
  by_cases hadded : page < s.1.pages.length
  · have hopened : SoundOn (some page) ({ s.1 with stack := [page] }, s.2) := Sound.only hs hadded
    rw [if_pos hadded, after_of_eq (start_of_added hadded)]
    exact enterActive_sound.after hopened
  · rw [if_neg hadded, after_of_error (start_of_unknown (Nat.not_lt.mp hadded))]
    exact hs

theorem follow_sound (transition : Transition) :
    Keeps (SoundOn root) (follow (κ := κ) (σ := σ) (β := β) transition) := by
  cases transition with
  | stay => exact Keeps.pure _
  | back => exact back_sound
  | enter page =>
    apply Keeps.get_bind
    intro s
    apply Keeps.ite
    · apply Keeps.bind (backTo_sound page)
      intro _
      exact Keeps.throw _
    · exact enter_sound page

theorem tick_sound [Display σ] : Keeps (SoundOn root) (tick (κ := κ) (σ := σ) (β := β)) := by
  unfold tick
  apply Keeps.get_bind
  intro s
  cases s.1.active with
  | none => exact Keeps.pure _
  | some page =>
    apply Keeps.bind
    · exact Keeps.modify fun t ht => ht
    intro _
    apply Keeps.bind (onPage_sound page _ _)
    intro transition
    apply Keeps.bind (follow_sound transition)
    intro _
    exact Keeps.pure _

theorem tick_of_none [Display σ] {n : Navigator κ} {p : Panel σ β} (hactive : n.active = none) :
    tick (n, p) = .ok .stay (n, p) := by
  unfold tick
  refine (bind_of_ok (t := (n, p)) rfl).trans ?_
  simp only [hactive]
  rfl

inductive Step (κ σ β : Type) where
  | add (page : κ)
  | start (page : Nat)
  | enter (page : Nat)
  | back
  | backTo (page : Nat)
  | tick
  /-- Anything that happens to the display, the controls or the queue in between. -/
  | panel (change : Panel σ β → Panel σ β)

structure Journey (κ σ β : Type) where
  nav : Navigator κ
  panel : Panel σ β
  root : Option Nat := none

namespace Journey

omit [Page κ σ β] in
def after {α : Type} (j : Journey κ σ β) (x : Action PanelError (Navigator κ × Panel σ β) α) :
    Journey κ σ β :=
  let s := x.after (j.nav, j.panel)
  { j with nav := s.1, panel := s.2 }

/-- A start is accepted if the page was added. -/
def step [Display σ] (j : Journey κ σ β) : Step κ σ β → Journey κ σ β
  | .add page => { j with nav := (Navigator.add page).after j.nav }
  | .start page =>
    { j.after (Navigator.start page) with
      root := if page < j.nav.pages.length then some page else j.root }
  | .enter page => j.after (Navigator.enter page)
  | .back => j.after Navigator.back
  | .backTo page => j.after (Navigator.backTo page)
  | .tick => j.after Navigator.tick
  | .panel change => { j with panel := change j.panel }

theorem step_sound [Display σ] (a : Step κ σ β) {j : Journey κ σ β} (h : j.nav.Sound j.root) :
    (j.step a).nav.Sound (j.step a).root := by
  have hs : SoundOn j.root (j.nav, j.panel) := h
  cases a with
  | add page => exact (add_sound page).after h
  | start page => exact start_sound hs
  | enter page => exact (enter_sound page).after hs
  | back => exact back_sound.after hs
  | backTo page => exact (backTo_sound page).after hs
  | tick => exact tick_sound.after hs
  | panel change => exact h

theorem run_sound [Display σ] (steps : List (Step κ σ β)) {j : Journey κ σ β}
    (h : j.nav.Sound j.root) : (steps.foldl step j).nav.Sound (steps.foldl step j).root := by
  induction steps generalizing j with
  | nil => exact h
  | cons a rest ih => exact ih (step_sound a h)

end Journey

theorem outcome_enterActive {n : Navigator κ} {p : Panel σ β} {page : Nat}
    (hactive : n.active = some page) (hadded : page < n.pages.length) :
    (enterActive (κ := κ)).outcome (n, p) = (Page.enter (κ := κ)).outcome (n.pages[page], p) := by
  have hpage : n.pages[page]? = some n.pages[page] := List.getElem?_eq_getElem hadded
  rw [outcome_of_eq (enterActive_of_active hactive), outcome_onPage hpage]

def HookFull (s : Navigator κ × Panel σ β) (page : Nat) : Prop :=
  ∃ k, s.1.pages[page]? = some k ∧
    (Page.enter (κ := κ)).outcome (k, s.2) = .error (.navigation .full)

theorem hookFull_of_opened {n : Navigator κ} {p : Panel σ β} {page : Nat} {stack : List Nat}
    (hadded : page < n.pages.length)
    (h : (enterActive (κ := κ)).outcome ({ n with stack := page :: stack }, p) =
      .error (.navigation .full)) : HookFull (n, p) page := by
  have hactive : ({ n with stack := page :: stack } : Navigator κ).active = some page := rfl
  rw [outcome_enterActive hactive hadded] at h
  exact ⟨_, List.getElem?_eq_getElem hadded, h⟩

theorem hookFull_of_start {s : Navigator κ × Panel σ β} {page : Nat}
    (h : (start page).outcome s = .error (.navigation .full)) : HookFull s page := by
  rcases Nat.lt_or_ge page s.1.pages.length with hadded | hunknown
  · apply hookFull_of_opened (n := s.1) hadded
    rw [outcome_of_eq (start_of_added hadded)] at h
    exact h
  · rw [outcome_of_error (start_of_unknown hunknown)] at h
    cases h

theorem hookFull_of_enter {s : Navigator κ × Panel σ β} (hs : SoundOn root s) {page : Nat}
    (h : (enter page).outcome s = .error (.navigation .full)) : HookFull s page := by
  rcases enter_cases hs page with hrun | hrun | ⟨hadded, _, hrun⟩
  · rw [outcome_of_error hrun] at h
    cases h
  · rw [outcome_of_error hrun] at h
    cases h
  · rw [outcome_of_eq hrun] at h
    exact hookFull_of_opened (n := s.1) hadded h

/-- After any run, a page is open at most once, all open pages were added, and a start or an enter finds
no room only if the hook of the page itself says so. Once a start was accepted its page is the bottom of
the stack, which only another start changes. -/
theorem stack_of_run [Display σ] (p : Panel σ β) (steps : List (Step κ σ β)) :
    let j := steps.foldl Journey.step (⟨{}, p, none⟩ : Journey κ σ β)
    j.nav.stack.Nodup ∧
      (∀ page, page ∈ j.nav.stack → page < j.nav.pages.length) ∧
      j.nav.depth ≤ j.nav.pages.length ∧ j.nav.pages.length ≤ 8 ∧
      (∀ root, j.root = some root → j.nav.stack ≠ [] ∧ j.nav.stack.getLast? = some root) ∧
      ∀ page, (start page).outcome (j.nav, j.panel) = .error (.navigation .full) ∨
          (enter page).outcome (j.nav, j.panel) = .error (.navigation .full) →
        HookFull (j.nav, j.panel) page := by
  intro j
  have hj : j.nav.Sound j.root := Journey.run_sound steps Sound.empty
  refine ⟨hj.nodup, hj.added, hj.depth_le, hj.pages_le, ?_, ?_⟩
  · intro root hroot
    rw [hroot] at hj
    exact ⟨hj.stack_ne_nil, hj.bottom root rfl⟩
  · intro page hfull
    rcases hfull with hfull | hfull
    · exact hookFull_of_start hfull
    · exact hookFull_of_enter (s := (j.nav, j.panel)) hj hfull

end FrontPanel.Navigator
