import FrontPanel.Proofs.Tft.Blocks
import FrontPanel.Tft.Display

/-!
# What drawing leaves on the screen

The layer that each drawing operation of a started display puts on its screen, as the chip behind the bus
sees it. A layer is given without regard to the edges of the screen: what lies beyond them is not seen.
-/

namespace FrontPanel

set_option autoImplicit false

namespace Tft

open FrontPanel.Action

structure Ready (d : Tft) : Prop where
  initialized : d.initialized = true
  withBackground : d.paint.withBackground = true
  width_le : d.offsetX + d.width ≤ 65536
  height_le : d.offsetY + d.height ≤ 65536

theorem Ready.drawable {d : Tft} (hd : d.Ready) : d.Drawable :=
  ⟨hd.initialized, hd.width_le, hd.height_le⟩

/-- The part of a display's memory that changes while a page is drawn in fixed colors. -/
structure Pen where
  mode : DrawMode
  x : Nat
  y : Nat

def Pen.paint (pen : Pen) (d : Tft) : Paint :=
  { d.paint with cursorX := pen.x, cursorY := pen.y, mode := pen.mode }

/-- The display is `d` but for its bus and its pen, no transfer fails, and its screen is `s`. -/
structure Shows (memory : Nat → Nat → Color) (d : Tft) (pen : Pen) (s : Screen) (t : Tft) : Prop where
  same : t = { d with bus := t.bus, paint := pen.paint d }
  faultless : t.bus.Faultless
  picture : ∀ x y, x < d.width → y < d.height → t.picture memory x y = s x y

variable {memory : Nat → Nat → Color} {d : Tft}

theorem Shows.congr {pen : Pen} {s s' : Screen} {t : Tft} (h : Shows memory d pen s t)
    (hs : ∀ x y, x < d.width → y < d.height → s x y = s' x y) : Shows memory d pen s' t :=
  ⟨h.same, h.faultless, fun x y hx hy => (h.picture x y hx hy).trans (hs x y hx hy)⟩

theorem Shows.paint {pen : Pen} {s : Screen} {t : Tft} (h : Shows memory d pen s t) :
    t.paint = pen.paint d := by rw [h.same]

/-- Started with a pen in `P` the action answers, with the pen in `Q`, and puts the layer on the screen. -/
def Draws {ε α : Type} (memory : Nat → Nat → Color) (d : Tft) (P : Pen → Prop) (x : Action ε Tft α)
    (Q : α → Pen → Prop) (l : Layer) : Prop :=
  ∀ pen s, P pen → Answers (Shows memory d pen s) x fun a t =>
    ∃ pen', Q a pen' ∧ Shows memory d pen' (l.on s) t

namespace Draws

variable {ε ε' α β : Type} {P P' : Pen → Prop} {Q Q' : α → Pen → Prop} {R : β → Pen → Prop}
variable {l l' : Layer}

theorem mono {x : Action ε Tft α} (h : Draws memory d P x Q l) (hP : ∀ pen, P' pen → P pen)
    (hQ : ∀ a pen, Q a pen → Q' a pen) : Draws memory d P' x Q' l := by
  intro pen s hpen
  refine (h pen s (hP pen hpen)).mono_post fun a t ⟨pen', hq, ht⟩ => ?_
  exact ⟨pen', hQ a pen' hq, ht⟩

/-- An action that leaves a pen as it is leaves it in `P`. -/
theorem keep {x : Action ε Tft α} {pen : Pen} (hpen : P pen)
    (h : Draws memory d (· = pen) x (fun _ => (· = pen)) l) :
    Draws memory d (· = pen) x (fun _ => P) l := by
  apply h.mono
  · exact fun _ hsame => hsame
  · rintro _ _ rfl
    exact hpen

theorem congr {x : Action ε Tft α} (h : Draws memory d P x Q l)
    (hl : ∀ x y, x < d.width → y < d.height → l x y = l' x y) : Draws memory d P x Q l' := by
  intro pen s hpen
  refine (h pen s hpen).mono_post fun a t ⟨pen', hq, ht⟩ => ?_
  refine ⟨pen', hq, ht.congr fun x y hx hy => ?_⟩
  simp only [Layer.on, hl x y hx hy]

theorem pure {a : α} (h : ∀ pen, P pen → Q a pen) :
    Draws memory d P (Pure.pure a : Action ε Tft α) Q Layer.blank :=
  fun pen _ hpen => Ensures.pure fun _ ht => ⟨pen, h pen hpen, ht⟩

theorem bind {x : Action ε Tft α} {f : α → Action ε Tft β} (hx : Draws memory d P x Q l)
    (hf : ∀ a, Draws memory d (Q a) (f a) R l') : Draws memory d P (x >>= f) R (l'.onto l) := by
  intro pen s hpen
  refine Ensures.bind (hx pen s hpen) fun a => Ensures.of_forall_eq fun t ⟨pen', hq, ht⟩ => ?_
  rw [Layer.onto_on]
  exact (hf a pen' (l.on s) hq).mono_pre fun _ he => he ▸ ht

theorem bind_blank {x : Action ε Tft α} {f : α → Action ε Tft β}
    (hx : Draws memory d P x Q Layer.blank) (hf : ∀ a, Draws memory d (Q a) (f a) R l) :
    Draws memory d P (x >>= f) R l := by
  rw [← Layer.onto_blank l]
  exact Draws.bind hx hf

theorem bind_end {x : Action ε Tft α} {f : α → Action ε Tft β} (hx : Draws memory d P x Q l)
    (hf : ∀ a, Draws memory d (Q a) (f a) R Layer.blank) : Draws memory d P (x >>= f) R l := by
  rw [← Layer.blank_onto l]
  exact Draws.bind hx hf

theorem get_bind {f : Tft → Action ε Tft β}
    (h : ∀ t pen, P pen → t = { d with bus := t.bus, paint := pen.paint d } →
      Draws memory d (· = pen) (f t) R l) : Draws memory d P (get >>= f) R l := by
  intro pen s hpen
  refine Ensures.get_bind fun t ht => ?_
  exact (h t pen hpen ht.same pen s rfl).mono_pre fun _ he => he ▸ ht

theorem failingAs {x : Action ε Tft α} {f : ε → ε'} (h : Draws memory d P x Q l) :
    Draws memory d P (x.failingAs f) Q l :=
  fun pen s hpen => Ensures.failingAs (h pen s hpen)

theorem ite {c : Prop} [Decidable c] {x y : Action ε Tft α} (hx : c → Draws memory d P x Q l)
    (hy : ¬ c → Draws memory d P y Q l) : Draws memory d P (if c then x else y) Q l := by
  split
  · exact hx ‹_›
  · exact hy ‹_›

theorem forM {γ : Type} {items : List γ} {f : γ → Action ε Tft PUnit} {layer : γ → Layer}
    (h : ∀ i ∈ items, Draws memory d P (f i) (fun _ => P) (layer i)) :
    Draws memory d P (items.forM f) (fun _ => P) (Layer.pile (items.map layer)) := by
  induction items with
  | nil => exact Draws.pure fun _ hp => hp
  | cons i items ih =>
    rw [List.forM_eq_forM, List.forM_cons]
    refine Draws.bind (h i List.mem_cons_self) fun _ => ?_
    exact ih fun j hj => h j (List.mem_cons_of_mem i hj)

theorem move {f : Paint → Paint} {g : Pen → Pen} {Q : PUnit → Pen → Prop}
    (hfg : ∀ pen, f (Pen.paint pen d) = (g pen).paint d) (h : ∀ pen, P pen → Q ⟨⟩ (g pen)) :
    Draws memory d P (modify (mapPaint f) : Action ε Tft PUnit) Q Layer.blank := by
  intro pen s hpen
  refine Ensures.modified fun t ht => ⟨g pen, h pen hpen, ?_, ht.faultless, ht.picture⟩
  rw [← hfg, ← ht.paint]
  exact congrArg (mapPaint f) ht.same |>.trans (by rw [ht.same]; rfl)

/-- What painting leaves in memory is seen on the screen. -/
theorem of_paints {x : Action TftError Tft α}
    (h : ∀ t pen, P pen → t = { d with bus := t.bus, paint := pen.paint d } →
      ∃ blocks, Paints t blocks x l) : Draws memory d P x (fun _ => P) l := by
  intro pen s hpen t ht
  obtain ⟨_, hpaints⟩ := h t pen hpen ht.same
  obtain ⟨_, t', hrun, ht'⟩ := (hpaints Layer.blank).exists_ok (Painted.refl _ ht.faultless)
  rw [hrun]
  refine ⟨pen, hpen, ht'.same.trans (by rw [ht.same]), ht'.faultless, fun px py hpx hpy => ?_⟩
  have hwidth : t.width = d.width := by rw [ht.same]
  have hheight : t.height = d.height := by rw [ht.same]
  have hold : (t.chip memory).memory (px + t.offsetX) (py + t.offsetY) = s px py :=
    ht.picture px py hpx hpy
  have hx : t'.offsetX = t.offsetX := by rw [ht'.same]
  have hy : t'.offsetY = t.offsetY := by rw [ht'.same]
  rw [picture, hx, hy, ht'.memory, Layer.onto_blank]
  simp only [inMemory, Layer.stamp, Layer.on]
  rw [if_pos (by omega), Nat.add_sub_cancel, Nat.add_sub_cancel, hold]

end Draws

variable {P : Pen → Prop}

theorem ready_of_pen (hd : d.Ready) {t : Tft} {pen : Pen}
    (ht : t = { d with bus := t.bus, paint := pen.paint d }) : t.Ready := by
  rw [ht]
  exact ⟨hd.initialized, hd.withBackground, hd.width_le, hd.height_le⟩

theorem fillRect_draws (hd : d.Ready) (x y width height : Nat) (color : Color) :
    Draws memory d P (fillRect x y width height color) (fun _ => P)
      (Layer.rect x y width height color) :=
  Draws.of_paints fun _ _ _ ht =>
    ⟨fun _ => True, fillRect_paints (ready_of_pen hd ht).drawable fun _ => trivial⟩

theorem fillArea_draws (hd : d.Ready) (x y width height : Nat) (mode : DrawMode) :
    Draws memory d P (fillArea x y width height mode) (fun _ => P)
      (Layer.rect x y width height (d.paint.areaColor mode)) := by
  unfold fillArea
  refine Draws.get_bind fun t pen hpen ht => ?_
  have hcolor : t.paint.areaColor mode = d.paint.areaColor mode := by
    rw [ht]
    cases mode <;> rfl
  rw [hcolor]
  exact Draws.keep hpen (Draws.failingAs (fillRect_draws hd x y width height _))

def modeColors (d : Tft) (mode : DrawMode) : Color × Color :=
  { d.paint with mode }.characterColors

theorem drawCharacter_draws (hd : d.Ready) {mode : DrawMode}
    (hP : ∀ pen, P pen → pen.mode = mode) (x y : Nat) (c : Char) :
    Draws memory d P (drawCharacter x y c) (fun _ => P)
      (Layer.cell x y (Glyph.ofChar c) (d.modeColors mode).1 (d.modeColors mode).2) := by
  refine Draws.of_paints fun t pen hpen ht => ?_
  have hready := ready_of_pen hd ht
  have hcolors : t.paint.characterColors = d.modeColors mode := by
    rw [ht, ← hP pen hpen]
    rfl
  rw [← hcolors, ← characterLayer_of_background hready.withBackground]
  exact ⟨_, drawCharacter_paints hready.drawable x y c⟩

theorem drawText_draws (hd : d.Ready) (mode : DrawMode) (x y : Nat) {text : List Char}
    (htext : ∀ c ∈ text, c ≠ '\n' ∧ c ≠ '\r') :
    Draws memory d (· = ⟨mode, x, y⟩) (drawText text)
      (fun _ => (· = ⟨mode, Glyph.textEnd x text, y⟩)) (Layer.text (d.modeColors mode) x y text) := by
  induction text generalizing x with
  | nil => exact Draws.pure fun _ h => h
  | cons c rest ih =>
    obtain ⟨hnewline, hreturn⟩ := htext c List.mem_cons_self
    unfold drawText
    rw [if_neg hnewline, if_pos hreturn]
    refine Draws.get_bind fun t pen hpen ht => ?_
    subst hpen
    have hpaint : t.paint = Pen.paint ⟨mode, x, y⟩ d := by rw [ht]
    simp only [hpaint, Pen.paint]
    refine Draws.bind (drawCharacter_draws hd (by rintro _ rfl; rfl) x y c) fun _ => ?_
    refine Draws.bind_blank (Q := fun _ => (· = ⟨mode, Number.plus x Glyph.width, y⟩))
      (Draws.move (g := fun pen => { pen with x := Number.plus pen.x Glyph.width })
        (fun _ => rfl) (by rintro _ rfl; rfl)) fun _ => ?_
    exact ih _ fun c hc => htext c (List.mem_cons_of_mem _ hc)

end Tft

end FrontPanel
