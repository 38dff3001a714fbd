import FrontPanel.Proofs.Display.Observed
import FrontPanel.Tft.Display

/-!
# What an action paints

Of the calls noted of a display, those for a pixel, a line or a box. `Paints x front P` says that the action
paints the calls of `front` first and then only calls with `P`. What is painted at the cursor depends on
where the display has it: `PlacesCursor` and `Content.MovesRight` say what a framed menu relies on.
-/

namespace FrontPanel

set_option autoImplicit false

open FrontPanel.Action

/-- The pixels from `left` up to `right` and from `top` down to `bottom`, without the two ends. -/
structure Pane where
  left : Nat
  top : Nat
  right : Nat
  bottom : Nat
  deriving DecidableEq

structure Pane.Within (p q : Pane) : Prop where
  left : q.left ≤ p.left
  top : q.top ≤ p.top
  right : p.right ≤ q.right
  bottom : p.bottom ≤ q.bottom

namespace DisplayCall

/-- The call is for a pixel, a line or a box. -/
def isPaint : DisplayCall → Bool
  | .pixel .. | .horizontal .. | .vertical .. | .box .. => true
  | _ => false

/-- All that the call paints is within the pane. -/
def Inside (p : Pane) : DisplayCall → Prop
  | .pixel x y _ => p.left ≤ x ∧ x < p.right ∧ p.top ≤ y ∧ y < p.bottom
  | .horizontal x y length _ => p.left ≤ x ∧ x + length ≤ p.right ∧ p.top ≤ y ∧ y < p.bottom
  | .vertical x y length _ => p.left ≤ x ∧ x < p.right ∧ p.top ≤ y ∧ y + length ≤ p.bottom
  | .box x y width height _ =>
    p.left ≤ x ∧ x + width ≤ p.right ∧ p.top ≤ y ∧ y + height ≤ p.bottom
  | _ => True

theorem Inside.mono {p q : Pane} {call : DisplayCall} (h : call.Inside p) (hpq : p.Within q) :
    call.Inside q := by
  obtain ⟨hleft, htop, hright, hbottom⟩ := hpq
  cases call <;> simp only [Inside] at h ⊢ <;> omega

end DisplayCall

def Sight.paint? : Sight → Option DisplayCall
  | .call c => if c.isPaint then some c else none
  | .aside | .row _ => none

theorem Sight.eq_of_paint? {c call : DisplayCall} (h : (Sight.call c).paint? = some call) : call = c := by
  change (if c.isPaint then some c else none) = some call at h
  split at h
  · exact (Option.some.inj h).symm
  · cases h

/-- The calls that paint, in order. -/
def painted (seen : List Sight) : List DisplayCall := seen.filterMap Sight.paint?

theorem painted_append (seen more : List Sight) :
    painted (seen ++ more) = painted seen ++ painted more := List.filterMap_append

theorem painted_calls {calls : List DisplayCall} (h : ∀ call ∈ calls, call.isPaint = true) :
    painted (calls.map .call) = calls := by
  induction calls with
  | nil => rfl
  | cons call calls ih =>
    obtain ⟨hcall, hcalls⟩ := List.forall_mem_cons.mp h
    rw [List.map_cons, painted, List.filterMap_cons, Sight.paint?, if_pos hcall]
    exact congrArg _ (ih hcalls)

theorem Notes.congr {σ α : Type} {x : Draw (Observed σ) α} {sights sights' : List Sight}
    (h : Notes x sights) (heq : sights = sights') : Notes x sights' := heq ▸ h

section Paints

variable {σ α β : Type} {base front : List DisplayCall} {P : DisplayCall → Prop}

/-- What is noted so far paints `base`, and behind it only calls with `P`. -/
def PaintedOnly (base : List DisplayCall) (P : DisplayCall → Prop) (w : Observed σ) : Prop :=
  ∃ rest, painted w.seen = base ++ rest ∧ ∀ call ∈ rest, P call

/-- Whether it answers or fails, the action paints the calls of `front` in order, all or only the first of
them, and once all of them are painted, calls with `P`. -/
def Paints (x : Draw (Observed σ) α) (front : List DisplayCall) (P : DisplayCall → Prop) : Prop :=
  ∀ w, ∃ first rest, painted (x.after w).seen = painted w.seen ++ (first ++ rest) ∧
    first <+: front ∧ (rest ≠ [] → first = front) ∧ ∀ call ∈ rest, P call

theorem Paints.of_keeps {x : Draw (Observed σ) α} (h : ∀ base, Keeps (PaintedOnly base P) x) :
    Paints x [] P := by
  intro w
  have hw : PaintedOnly (painted w.seen) P w := ⟨[], (List.append_nil _).symm, nofun⟩
  obtain ⟨rest, hseen, hrest⟩ := (h (painted w.seen)).after hw
  exact ⟨[], rest, hseen, List.prefix_refl _, fun _ => rfl, hrest⟩

theorem Paints.bind {x : Draw (Observed σ) α} {f : α → Draw (Observed σ) β} {sights : List Sight}
    (hx : Notes x sights) (hf : ∀ a, Paints (f a) front P) :
    Paints (x >>= f) (painted sights ++ front) P := by
  intro w
  have hseen := hx w
  cases hrun : x w with
  | error e t =>
    rw [hrun] at hseen
    obtain ⟨made, hmade, hseen⟩ := hseen
    refine ⟨painted made, [], ?_, ?_, nofun, nofun⟩
    · rw [after_of_error (bind_of_error hrun), hseen, painted_append, List.append_nil]
    · exact (hmade.filterMap _).trans (List.prefix_append _ _)
  | ok a t =>
    rw [hrun] at hseen
    obtain ⟨first, rest, hpainted, hfirst, hall, hrest⟩ := hf a t
    refine ⟨painted sights ++ first, rest, ?_, (List.prefix_append_right_inj _).mpr hfirst,
      fun hne => by rw [hall hne], hrest⟩
    rw [after_of_eq (bind_of_ok hrun), hpainted, hseen, painted_append]
    simp only [List.append_assoc]

theorem Paints.pure (a : α) (front : List DisplayCall) (P : DisplayCall → Prop) :
    Paints (Pure.pure a : Draw (Observed σ) α) front P := by
  intro w
  exact ⟨[], [], (List.append_nil _).symm, List.nil_prefix, nofun, nofun⟩

theorem Paints.answering {x : Draw (Observed σ) α} (h : Paints x front P) (b : β) :
    Paints (x >>= fun _ => Pure.pure b) front P := by
  intro w
  rw [after_bind fun _ _ => rfl]
  exact h w

/-- Noting a call with `P`, or one that paints nothing, beside what the action does to the display. -/
theorem PaintedOnly.noting {sight : Sight} {y : Draw σ α} {C : σ → Prop} {D : α → σ → Prop}
    (hsight : ∀ call, sight.paint? = some call → P call) (hy : Ensures C y D fun _ _ => True) :
    Ensures (fun w => PaintedOnly base P w ∧ C w.display) (Observed.noting sight y)
      (fun a w => PaintedOnly base P w ∧ D a w.display) fun _ => PaintedOnly base P := by
  rintro ⟨s, seen⟩ ⟨⟨rest, hseen, hrest⟩, hs⟩
  have hnoted : ∀ t : σ, PaintedOnly base P ⟨t, seen ++ [sight]⟩ := by
    intro t
    refine ⟨rest ++ painted [sight], ?_, ?_⟩
    · rw [painted_append, show painted seen = base ++ rest from hseen, List.append_assoc]
    · intro call hcall
      rcases List.mem_append.mp hcall with hcall | hcall
      · exact hrest call hcall
      · obtain ⟨_, hmem, hpaint⟩ := List.mem_filterMap.mp hcall
        cases List.mem_singleton.mp hmem
        exact hsight call hpaint
  have hrun := hy s hs
  unfold Observed.noting Action.within
  dsimp only
  cases hy' : y s with
  | ok a t =>
    rw [hy'] at hrun
    exact ⟨hnoted t, hrun⟩
  | error e t => exact hnoted t

theorem PaintedOnly.keeps_noting {sight : Sight} (y : Draw σ α)
    (hsight : ∀ call, sight.paint? = some call → P call) :
    Keeps (PaintedOnly base P) (Observed.noting sight y) := by
  have hy : Ensures (fun _ => True) y (fun _ _ => True) fun _ _ => True := by
    intro s _
    cases y s <;> trivial
  exact ((PaintedOnly.noting hsight hy).mono_pre fun w hw => ⟨hw, trivial⟩).mono_post
    fun _ _ hw => hw.1

theorem PaintedOnly.keeps_call {c : DisplayCall} (y : Draw σ α) (hc : P c) :
    Keeps (PaintedOnly base P) (Observed.noting (.call c) y) :=
  keeps_noting y fun _ h => Sight.eq_of_paint? h ▸ hc

end Paints

section Cursor

variable {σ : Type} [Display σ]

variable (σ) in
/-- Where the cursor of the display is put, there it is. -/
def PlacesCursor : Prop :=
  ∀ x y (s t : σ), Display.setCursorAt x y s = .ok ⟨⟩ t → Display.cursor t = .ok (x, y)

/-- A row, once it is written, has moved the cursor to the right at most, from any place that a cursor
can have. -/
def Content.MovesRight (content : Content σ) : Prop :=
  ∀ row (s t : σ) x y x' y', x ≤ Number.maxCoordinate → Display.cursor s = .ok (x, y) →
    content.writeRow row s = .ok ⟨⟩ t → Display.cursor t = .ok (x', y') → x ≤ x' ∧ y' = y

end Cursor

theorem Tft.placesCursor : PlacesCursor Tft := by
  rintro x y s t ⟨⟩
  rfl

namespace Recorder

theorem receive_eq_ok {call : DisplayCall} {move : Recorder → Recorder} {s t : Recorder}
    (h : receive call move s = .ok ⟨⟩ t) :
    t = move { s with faults := s.faults.next, calls := call :: s.calls } := by
  unfold receive at h
  dsimp only at h
  split at h <;> cases h
  rfl

theorem cursor_eq_ok {s : Recorder} {x y : Nat} :
    Display.cursor s = .ok (x, y) ↔
      s.capabilities.includes .graphics = true ∧ s.cursorX = x ∧ s.cursorY = y := by
  change (if s.capabilities.includes .graphics then _ else _) = _ ↔ _
  by_cases hgraphics : s.capabilities.includes .graphics <;> simp [hgraphics]

theorem placesCursor : PlacesCursor Recorder := by
  intro x y s t hrun
  change receiveWith .graphics (.cursorAt x y) (moveTo x y) s = .ok ⟨⟩ t at hrun
  unfold receiveWith at hrun
  split at hrun
  · next hgraphics =>
    obtain rfl := receive_eq_ok hrun
    exact cursor_eq_ok.mpr ⟨hgraphics, rfl, rfl⟩
  · cases hrun

theorem movesRight_of_write (title : String) (text : Nat → String) :
    Content.MovesRight (⟨title, fun row => Display.write (text row)⟩ : Content Recorder) := by
  intro row s t x y x' y' hx hcursor hrun hcursor'
  obtain rfl := receive_eq_ok hrun
  obtain ⟨_, rfl, rfl⟩ := cursor_eq_ok.mp hcursor
  obtain ⟨_, rfl, rfl⟩ := cursor_eq_ok.mp hcursor'
  exact ⟨Nat.le_min.mpr ⟨hx, Nat.le_add_right _ _⟩, rfl⟩

end Recorder

end FrontPanel
