import FrontPanel.Display.Recorder
import FrontPanel.Menu.Renderer
import FrontPanel.Proofs.Action

/-!
# A display under observation

Any display, with notes of the calls that it gets and of the rows that a content is asked for. Observing
changes nothing: `Observes x y rows` says that `x` does on the observed display what `y` does on the display
itself, and that `rows` are the rows asked for if it answers. `Notes x sights` says what is noted on the way.
-/

namespace FrontPanel

set_option autoImplicit false

open FrontPanel.Action

/-- What is noted: a call, one that no menu makes, or that a content is asked for a row. -/
inductive Sight where
  | call (call : DisplayCall)
  | aside
  | row (row : Nat)
  deriving DecidableEq

def Sight.asked : Sight → Option Nat
  | .call _ | .aside => none
  | .row n => some n

/-- The rows that a content was asked for, in order. -/
def requested (seen : List Sight) : List Nat := seen.filterMap Sight.asked

theorem requested_append (seen more : List Sight) :
    requested (seen ++ more) = requested seen ++ requested more := List.filterMap_append

structure Observed (σ : Type) where
  display : σ
  /-- The notes, the earliest first. -/
  seen : List Sight

namespace Observed

variable {σ α : Type}

def noting (sight : Sight) (x : Draw σ α) : Draw (Observed σ) α := fun w =>
  x.within display (fun s w => { w with display := s }) { w with seen := w.seen ++ [sight] }

end Observed

section Observed

variable {σ : Type}

open Observed in
/-- Looking up what a display knows and reading its controls is not noted. -/
instance [Display σ] : Display (Observed σ) where
  start := noting (.call .start) Display.start
  clear := noting (.call .clear) Display.clear
  home := noting (.call .home) Display.home
  setCursor column row := noting (.call (.cursor column row)) (Display.setCursor column row)
  write text := noting (.call (.write text)) (Display.write text)
  readButtons w :=
    let r := Display.readButtons w.display
    (r.1, { w with display := r.2 })
  readSteps w :=
    let r := Display.readSteps w.display
    (r.1, { w with display := r.2 })
  resolution w := Display.resolution w.display
  capabilities w := Display.capabilities w.display
  textLines w := Display.textLines w.display
  dimensions w := Display.dimensions w.display
  setCursorAt x y := noting (.call (.cursorAt x y)) (Display.setCursorAt x y)
  cursor w := Display.cursor w.display
  pixel x y mode := noting (.call (.pixel x y mode)) (Display.pixel x y mode)
  horizontal x y length mode :=
    noting (.call (.horizontal x y length mode)) (Display.horizontal x y length mode)
  vertical x y length mode :=
    noting (.call (.vertical x y length mode)) (Display.vertical x y length mode)
  box x y width height mode :=
    noting (.call (.box x y width height mode)) (Display.box x y width height mode)
  character x y c := noting .aside (Display.character x y c)
  setForeground color := noting .aside (Display.setForeground color)
  foreground w := Display.foreground w.display
  setBackground color := noting .aside (Display.setBackground color)
  background w := Display.background w.display
  setMode mode := noting (.call (.mode mode)) (Display.setMode mode)
  mode w := Display.mode w.display
  paintBackground on := noting .aside (Display.paintBackground on)
  buzz milliseconds hertz := noting .aside (Display.buzz milliseconds hertz)
  setLamp index on := noting .aside (Display.setLamp index on)
  setVariant variant := noting .aside (Display.setVariant variant)
  contrast w := Display.contrast w.display
  setContrast contrast := noting .aside (Display.setContrast contrast)

/-- A content that notes each row it is asked for, and then writes it as before. -/
def Content.observed (content : Content σ) : Content (Observed σ) where
  title := content.title
  writeRow row := Observed.noting (.row row) (content.writeRow row)

end Observed

variable {σ α β : Type}

def Observes (x : Draw (Observed σ) α) (y : Draw σ α) (rows : List Nat) : Prop :=
  ∀ s seen,
    match y s with
    | .ok a t => ∃ more, x ⟨s, seen⟩ = .ok a ⟨t, seen ++ more⟩ ∧ requested more = rows
    | .error e t => ∃ more, x ⟨s, seen⟩ = .error e ⟨t, seen ++ more⟩

namespace Observes

variable {rows rows' : List Nat}

theorem of_ok {x : Draw (Observed σ) α} {y : Draw σ α} (h : Observes x y rows) {s t : σ} {a : α}
    (hr : y s = .ok a t) (seen : List Sight) :
    ∃ more, x ⟨s, seen⟩ = .ok a ⟨t, seen ++ more⟩ ∧ requested more = rows := by
  have hx := h s seen
  rwa [hr] at hx

theorem of_error {x : Draw (Observed σ) α} {y : Draw σ α} (h : Observes x y rows) {s t : σ}
    {e : DisplayError} (hr : y s = .error e t) (seen : List Sight) :
    ∃ more, x ⟨s, seen⟩ = .error e ⟨t, seen ++ more⟩ := by
  have hx := h s seen
  rwa [hr] at hx

theorem noting (sight : Sight) (y : Draw σ α) :
    Observes (Observed.noting sight y) y (requested [sight]) := by
  intro s seen
  unfold Observed.noting within
  cases y s with
  | ok a t => exact ⟨[sight], rfl, rfl⟩
  | error e t => exact ⟨[sight], rfl⟩

/-- An action that leaves a display as it is does so under observation. -/
theorem ofExcept (r : Except DisplayError α) :
    Observes (Action.ofExcept r) (Action.ofExcept r : Draw σ α) [] := by
  intro s seen
  cases r with
  | ok a => exact ⟨[], by rw [List.append_nil]; rfl, rfl⟩
  | error e => exact ⟨[], by rw [List.append_nil]; rfl⟩

theorem pure (a : α) : Observes (Pure.pure a) (Pure.pure a : Draw σ α) [] :=
  ofExcept (.ok a)

theorem bind {x : Draw (Observed σ) α} {y : Draw σ α} {f : α → Draw (Observed σ) β}
    {g : α → Draw σ β} (hx : Observes x y rows) (hf : ∀ a, Observes (f a) (g a) rows') :
    Observes (x >>= f) (y >>= g) (rows ++ rows') := by
  intro s seen
  cases hy : y s with
  | error e t =>
    obtain ⟨more, hrun⟩ := hx.of_error hy seen
    rw [bind_of_error hy]
    exact ⟨more, bind_of_error hrun⟩
  | ok a t =>
    obtain ⟨more, hrun, hrows⟩ := hx.of_ok hy seen
    rw [bind_of_ok hy, bind_of_ok hrun]
    cases hg : g a t with
    | error e u =>
      obtain ⟨rest, hrest⟩ := (hf a).of_error hg (seen ++ more)
      exact ⟨more ++ rest, by rw [hrest, List.append_assoc]⟩
    | ok b u =>
      obtain ⟨rest, hrest, hrows'⟩ := (hf a).of_ok hg (seen ++ more)
      exact ⟨more ++ rest, by rw [hrest, List.append_assoc],
        by rw [requested_append, hrows, hrows']⟩

/-- An action that asks for no rows, in front of another one. -/
theorem bind_quiet {x : Draw (Observed σ) α} {y : Draw σ α} {f : α → Draw (Observed σ) β}
    {g : α → Draw σ β} (hx : Observes x y []) (hf : ∀ a, Observes (f a) (g a) rows) :
    Observes (x >>= f) (y >>= g) rows :=
  bind hx hf

theorem bind_last {x : Draw (Observed σ) α} {y : Draw σ α} {f : α → Draw (Observed σ) β}
    {g : α → Draw σ β} (hx : Observes x y rows) (hf : ∀ a, Observes (f a) (g a) []) :
    Observes (x >>= f) (y >>= g) rows := by
  rw [← List.append_nil rows]
  exact bind hx hf

theorem get_bind {f : Observed σ → Draw (Observed σ) β} {g : σ → Draw σ β}
    (h : ∀ s seen, Observes (f ⟨s, seen⟩) (g s) rows) : Observes (get >>= f) (get >>= g) rows :=
  fun s seen => h s seen s seen

theorem ite {c : Prop} [Decidable c] {x x' : Draw (Observed σ) α} {y y' : Draw σ α}
    (hx : c → Observes x y rows) (hx' : ¬ c → Observes x' y' rows) :
    Observes (if c then x else x') (if c then y else y') rows := by
  split
  · exact hx ‹_›
  · exact hx' ‹_›

theorem forM {γ : Type} {items : List γ} {f : γ → Draw (Observed σ) PUnit} {g : γ → Draw σ PUnit}
    {rows : γ → List Nat} (h : ∀ i ∈ items, Observes (f i) (g i) (rows i)) :
    Observes (items.forM f) (items.forM g) (items.flatMap rows) := by
  induction items with
  | nil => exact Observes.pure _
  | cons i items ih =>
    rw [List.forM_eq_forM, List.forM_eq_forM, List.forM_cons, List.forM_cons, List.flatMap_cons]
    refine bind (h i List.mem_cons_self) fun _ => ?_
    exact ih fun j hj => h j (List.mem_cons_of_mem i hj)

end Observes

/-- An action that answers has noted these sights, and one that fails those before its failure. -/
def Notes (x : Draw (Observed σ) α) (sights : List Sight) : Prop :=
  ∀ w,
    match x w with
    | .ok _ t => t.seen = w.seen ++ sights
    | .error _ t => ∃ made, made <+: sights ∧ t.seen = w.seen ++ made

namespace Notes

variable {sights sights' : List Sight}

theorem noting (sight : Sight) (y : Draw σ α) : Notes (Observed.noting sight y) [sight] := by
  intro w
  unfold Observed.noting within
  dsimp only
  cases y w.display with
  | ok a t => rfl
  | error e t => exact ⟨[sight], List.prefix_refl _, rfl⟩

theorem pure (a : α) : Notes (Pure.pure a : Draw (Observed σ) α) [] :=
  fun w => (List.append_nil w.seen).symm

theorem bind {x : Draw (Observed σ) α} {f : α → Draw (Observed σ) β} (hx : Notes x sights)
    (hf : ∀ a, Notes (f a) sights') : Notes (x >>= f) (sights ++ sights') := by
  intro w
  have hseen := hx w
  cases hrun : x w with
  | error e t =>
    rw [hrun] at hseen
    rw [bind_of_error hrun]
    obtain ⟨made, hmade, hseen⟩ := hseen
    exact ⟨made, hmade.trans (List.prefix_append _ _), hseen⟩
  | ok a t =>
    rw [hrun] at hseen
    rw [bind_of_ok hrun]
    have hrest := hf a t
    cases hnext : f a t with
    | error e u =>
      rw [hnext] at hrest
      obtain ⟨made, hmade, hrest⟩ := hrest
      exact ⟨sights ++ made, (List.prefix_append_right_inj sights).mpr hmade,
        by rw [hrest, hseen, List.append_assoc]⟩
    | ok b u =>
      rw [hnext] at hrest
      exact (by rw [hrest, hseen, List.append_assoc] : u.seen = w.seen ++ (sights ++ sights'))

theorem forM {γ : Type} {items : List γ} {f : γ → Draw (Observed σ) PUnit} {sights : γ → List Sight}
    (h : ∀ i ∈ items, Notes (f i) (sights i)) : Notes (items.forM f) (items.flatMap sights) := by
  induction items with
  | nil => exact Notes.pure _
  | cons i items ih =>
    rw [List.forM_eq_forM, List.forM_cons, List.flatMap_cons]
    refine bind (h i List.mem_cons_self) fun _ => ?_
    exact ih fun j hj => h j (List.mem_cons_of_mem i hj)

end Notes

end FrontPanel
