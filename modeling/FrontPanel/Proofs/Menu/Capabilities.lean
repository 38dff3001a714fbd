import FrontPanel.Proofs.Menu.Requests

/-!
# What a redraw needs of a display

A framed menu is chosen by a single capability, that of painting boxes and lines. To place text by the pixel
and to write it inverted are two others, and a redraw uses them where it is due to write rows. A display that
offers just what it advertises therefore gets some framed redraws done and not others; in text, every display
gets every redraw done.
-/

namespace FrontPanel

set_option autoImplicit false

open FrontPanel.Action

/-- In the states `I`, the operation answers if `offered` holds, and fails as unsupported if not. -/
def OfferedIf {σ α : Type} (I : σ → Prop) (offered : Prop) (x : Draw σ α) : Prop :=
  Ensures I x (fun _ s => offered ∧ I s) fun e s => (¬ offered ∧ e = .unsupported) ∧ I s

/-- The same of a question that a display answers without a change. -/
def KnownIf {α : Type} (offered : Prop) : Except DisplayError α → Prop
  | .ok _ => offered
  | .error e => ¬ offered ∧ e = .unsupported

namespace OfferedIf

variable {σ α β : Type} {I : σ → Prop} {p q : Prop}

theorem congr {x : Draw σ α} (h : OfferedIf I p x) (hpq : p ↔ q) : OfferedIf I q x :=
  propext hpq ▸ h

theorem always {x : Draw σ α} (h : OfferedIf I p x) (hp : p) : OfferedIf I True x :=
  h.congr (iff_true_intro hp)

theorem pure (a : α) : OfferedIf I True (Pure.pure a : Draw σ α) :=
  Ensures.pure fun _ hs => ⟨trivial, hs⟩

/-- What is done in sequence is offered if all of it is. -/
theorem bind {x : Draw σ α} {f : α → Draw σ β} (hx : OfferedIf I p x)
    (hf : ∀ a, OfferedIf I q (f a)) : OfferedIf I (p ∧ q) (x >>= f) := by
  have hx : Ensures I x (fun _ s => p ∧ I s) fun e s => (¬ (p ∧ q) ∧ e = .unsupported) ∧ I s :=
    hx.mono_error fun e s he => ⟨⟨fun hpq => he.1.1 hpq.1, he.1.2⟩, he.2⟩
  refine Ensures.bind hx fun a => Ensures.of_forall_eq ?_
  rintro s ⟨hp, hs⟩
  refine (hf a).mono (fun t ht => ht ▸ hs) (fun b t ht => ⟨⟨hp, ht.1⟩, ht.2⟩) fun e t ht => ?_
  exact ⟨⟨fun hpq => ht.1.1 hpq.2, ht.1.2⟩, ht.2⟩

theorem bind_always {x : Draw σ α} {f : α → Draw σ β} (hx : OfferedIf I True x)
    (hf : ∀ a, OfferedIf I q (f a)) : OfferedIf I q (x >>= f) :=
  (hx.bind hf).congr (by simp only [true_and])

theorem asking {ask : σ → Except DisplayError α} {f : α → Draw σ β} (hask : ∀ s, I s → KnownIf p (ask s))
    (hf : ∀ a, OfferedIf I q (f a)) :
    OfferedIf I (p ∧ q) (do let a ← Action.ofExcept (ask (← get)); f a) := by
  refine Ensures.get_bind fun s hs => ?_
  have hanswer : OfferedIf I p (Action.ofExcept (ask s)) := by
    intro t ht
    have hknown := hask s hs
    unfold Action.ofExcept
    cases hr : ask s with
    | ok a =>
      rw [hr] at hknown
      exact ⟨hknown, ht⟩
    | error e =>
      rw [hr] at hknown
      exact ⟨hknown, ht⟩
  exact (hanswer.bind hf).mono_pre fun t ht => ht ▸ hs

theorem ite {c : Prop} [Decidable c] {x y : Draw σ α} (hx : c → OfferedIf I p x)
    (hy : ¬ c → OfferedIf I p y) : OfferedIf I p (if c then x else y) :=
  Ensures.ite hx hy

theorem forM {γ : Type} {items : List γ} {needs : γ → Prop} {f : γ → Draw σ PUnit}
    (h : ∀ i ∈ items, OfferedIf I (needs i) (f i)) :
    OfferedIf I (∀ i ∈ items, needs i) (items.forM f) := by
  induction items with
  | nil => exact (OfferedIf.pure PUnit.unit).congr (by simp)
  | cons i items ih =>
    have hrest := ih fun j hj => h j (List.mem_cons_of_mem i hj)
    rw [List.forM_eq_forM, List.forM_cons]
    exact ((h i List.mem_cons_self).bind fun _ => hrest).congr List.forall_mem_cons.symm

theorem outcome_eq {x : Draw σ α} (h : OfferedIf I p x) {s : σ} (hs : I s) :
    (p ∧ ∃ a, x.outcome s = .ok a) ∨ ¬ p ∧ x.outcome s = .error .unsupported := by
  have hx := h s hs
  unfold Action.outcome
  cases hr : x s with
  | ok a t =>
    rw [hr] at hx
    exact Or.inl ⟨hx.1, a, rfl⟩
  | error e t =>
    rw [hr] at hx
    exact Or.inr ⟨hx.1.1, congrArg Except.error hx.1.2⟩

end OfferedIf

/-- In the states `I`, a display offers all operations that a menu requires, and of the optional ones those
that it advertises and no others. -/
structure Advertises {σ : Type} [Display σ] (I : σ → Prop) (all : Capabilities) : Prop where
  capabilities : ∀ s, I s → Display.capabilities s = all
  clear : OfferedIf I True (Display.clear : Draw σ Unit)
  setCursor : ∀ column row, OfferedIf I True (Display.setCursor column row : Draw σ Unit)
  write : ∀ text, OfferedIf I True (Display.write text : Draw σ Unit)
  setCursorAt : ∀ x y,
    OfferedIf I (all.includes .graphics = true) (Display.setCursorAt x y : Draw σ Unit)
  cursor : ∀ s, I s → KnownIf (all.includes .graphics = true) (Display.cursor s)
  pixel : ∀ x y mode,
    OfferedIf I (all.includes .fullGraphics = true) (Display.pixel x y mode : Draw σ Unit)
  horizontal : ∀ x y length mode,
    OfferedIf I (all.includes .fullGraphics = true) (Display.horizontal x y length mode : Draw σ Unit)
  vertical : ∀ x y length mode,
    OfferedIf I (all.includes .fullGraphics = true) (Display.vertical x y length mode : Draw σ Unit)
  box : ∀ x y width height mode,
    OfferedIf I (all.includes .fullGraphics = true) (Display.box x y width height mode : Draw σ Unit)
  dimensions : ∀ s, I s → KnownIf (all.includes .fullGraphics = true) (Display.dimensions s)
  setMode : ∀ mode, OfferedIf I (all.includes .drawMode = true) (Display.setMode mode : Draw σ Unit)

/-- The rows are texts. -/
def Content.WritesTexts {σ : Type} [Display σ] (content : Content σ) : Prop :=
  ∀ row, ∃ texts : List String, content.writeRow row = texts.forM Display.write

namespace Renderer

variable {σ : Type} [Display σ] {I : σ → Prop} {all : Capabilities}

theorem writeRow_offered (h : Advertises I all) {content : Content σ} (hcontent : content.WritesTexts)
    (row : Nat) : OfferedIf I True (content.writeRow row) := by
  obtain ⟨texts, hrow⟩ := hcontent row
  rw [hrow]
  exact (OfferedIf.forM fun text _ => h.write text).congr (by simp)

section Text

variable (h : Advertises I all) (w : Window) {content : Content σ} (hcontent : content.WritesTexts)
include h hcontent

theorem redrawPage_offered (clear : Bool) : OfferedIf I True (redrawPage w content clear) := by
  have hrows : OfferedIf I True (w.visibleRows.forM fun row => do
      Display.setCursor 0 (row - w.start)
      content.writeRow row) :=
    (OfferedIf.forM fun row _ => (h.setCursor _ _).bind_always fun _ =>
      writeRow_offered h hcontent row).congr (by simp)
  unfold redrawPage
  exact OfferedIf.ite (fun _ => h.clear.bind_always fun _ => hrows) fun _ => hrows

theorem redrawText_offered (clear : Bool) : OfferedIf I True (redrawText w content clear) := by
  have hrows : OfferedIf I True (w.visibleRows.forM fun row => do
      Display.setCursor 0 (row - w.start)
      Display.write (if row = w.current then ">" else " ")
      Display.setCursor 2 (row - w.start)
      content.writeRow row) :=
    (OfferedIf.forM fun row _ => (h.setCursor _ _).bind_always fun _ =>
      (h.write _).bind_always fun _ => (h.setCursor _ _).bind_always fun _ =>
        writeRow_offered h hcontent row).congr (by simp)
  unfold redrawText
  exact OfferedIf.ite (fun _ => h.clear.bind_always fun _ => hrows) fun _ => hrows

end Text

section Framed

variable (h : Advertises I all) (hfull : all.includes .fullGraphics = true)
include h hfull

theorem fill_offered (x y width height : Nat) (mode : DrawMode) :
    OfferedIf I True (fill x y width height mode : Draw σ Unit) :=
  OfferedIf.ite (fun _ => OfferedIf.pure _) fun _ => (h.box x y width height mode).always hfull

theorem drawFrame_offered (r : Renderer) (title : String) :
    OfferedIf I (all.includes .graphics = true ∧ all.includes .drawMode = true)
      (r.drawFrame title : Draw σ Unit) := by
  have htitle : OfferedIf I (all.includes .graphics = true ∧ all.includes .drawMode = true) (do
      Display.setMode .erase
      Display.setCursorAt Layout.textX 1
      Display.write title
      Display.setMode .draw : Draw σ Unit) := by
    refine ((h.setMode .erase).bind fun _ => (h.setCursorAt _ _).bind fun _ =>
      (h.write title).bind_always fun _ => h.setMode .draw).congr ?_
    tauto
  unfold drawFrame
  refine ((h.box _ _ _ _ _).always hfull).bind_always fun _ => ?_
  refine ((h.vertical _ _ _ _).always hfull).bind_always fun _ => ?_
  refine ((h.vertical _ _ _ _).always hfull).bind_always fun _ => ?_
  refine ((h.horizontal _ _ _ _).always hfull).bind_always fun _ => ?_
  refine ((h.pixel _ _ _).always hfull).bind_always fun _ => ?_
  exact ((h.pixel _ _ _).always hfull).bind_always fun _ => htitle

theorem drawScrollBarIfNeeded_offered (r : Renderer) (w : Window) :
    OfferedIf I True (r.drawScrollBarIfNeeded w : Draw σ Unit) := by
  refine OfferedIf.ite (fun _ => ?_) fun _ => OfferedIf.pure _
  unfold drawScrollBar
  refine ((h.vertical _ _ _ _).always hfull).bind_always fun _ => ?_
  refine (fill_offered h hfull _ _ _ _ _).bind_always fun _ => ?_
  refine (fill_offered h hfull _ _ _ _ _).bind_always fun _ => ?_
  exact fill_offered h hfull _ _ _ _ _

theorem drawHighlight_offered (r : Renderer) (w : Window) (line : Nat) (mode : DrawMode) :
    OfferedIf I True (r.drawHighlight w line mode : Draw σ Unit) :=
  (h.box _ _ _ _ _).always hfull

variable {content : Content σ} (hcontent : content.WritesTexts)
include hcontent

omit hfull in
theorem drawRow_offered (w : Window) (row : Nat) (highlighted : Bool) :
    OfferedIf I (all.includes .graphics = true ∧ (highlighted = true → all.includes .drawMode = true))
      (drawRow w content row highlighted) := by
  have hrow := writeRow_offered h hcontent row
  unfold drawRow
  refine (h.setCursorAt _ _).bind fun _ => ?_
  cases highlighted with
  | true =>
    refine ((h.setMode .erase).bind fun _ => hrow.bind_always fun _ => h.setMode .draw).congr ?_
    tauto
  | false => exact hrow.congr (by simp)

theorem drawRowPadded_offered (r : Renderer) (w : Window) (row : Nat) :
    OfferedIf I (all.includes .graphics = true) (r.drawRowPadded w content row) := by
  unfold drawRowPadded
  refine ((h.horizontal _ _ _ _).always hfull).bind_always fun _ => ?_
  refine ((h.vertical _ _ _ _).always hfull).bind_always fun _ => ?_
  refine ((drawRow_offered h hcontent w row false).bind fun _ =>
    OfferedIf.asking h.cursor fun _ => fill_offered h hfull _ _ _ _ _).congr ?_
  tauto

/-- The title alone needs both. -/
theorem drawAll_offered (r : Renderer) (w : Window) :
    OfferedIf I (all.includes .graphics = true ∧ all.includes .drawMode = true)
      (r.drawAll w content) := by
  have hrows := OfferedIf.forM fun row (_ : row ∈ w.visibleRows) =>
    drawRow_offered h hcontent w row (row == w.current)
  unfold drawAll
  refine (h.clear.bind_always fun _ => (drawFrame_offered h hfull r content.title).bind fun _ =>
    (drawScrollBarIfNeeded_offered h hfull r w).bind_always fun _ =>
      (drawHighlight_offered h hfull r w _ _).bind_always fun _ => hrows).congr ?_
  tauto

theorem drawMoved_offered (r : Renderer) (w : Window) :
    OfferedIf I ((w.visibleRows ≠ [] → all.includes .graphics = true) ∧
        (w.current ∈ w.visibleRows → all.includes .drawMode = true))
      (r.drawMoved w content) := by
  have hrow (row : Nat) : OfferedIf I
      (all.includes .graphics = true ∧ (row = w.current → all.includes .drawMode = true))
      (if row = w.current then drawRow w content row true else r.drawRowPadded w content row) := by
    refine OfferedIf.ite (fun hcurrent => ?_) fun hother => ?_
    · exact (drawRow_offered h hcontent w row true).congr (by simp [hcurrent])
    · exact (drawRowPadded_offered h hfull hcontent r w row).congr (by simp [hother])
  have hrows := OfferedIf.forM fun row (_ : row ∈ w.visibleRows) => hrow row
  unfold drawMoved
  refine ((drawScrollBarIfNeeded_offered h hfull r w).bind_always fun _ =>
    (drawHighlight_offered h hfull r w _ _).bind_always fun _ => hrows).congr ⟨fun hall => ?_, ?_⟩
  · refine ⟨fun hsome => ?_, fun hcurrent => (hall _ hcurrent).2 rfl⟩
    obtain ⟨row, hrow⟩ := List.exists_mem_of_ne_nil _ hsome
    exact (hall row hrow).1
  · rintro ⟨hsome, hcurrent⟩ row hrow
    exact ⟨hsome (List.ne_nil_of_mem hrow), fun hsame => hcurrent (hsame ▸ hrow)⟩

theorem drawHighlightMoved_offered (r : Renderer) (w : Window) :
    OfferedIf I (all.includes .graphics = true ∧ all.includes .drawMode = true)
      (r.drawHighlightMoved w content) := by
  have hnew := drawRow_offered h hcontent w w.current true
  have hold := drawRow_offered h hcontent w w.drawnCurrent false
  unfold drawHighlightMoved
  refine (drawScrollBarIfNeeded_offered h hfull r w).bind_always fun _ => ?_
  cases w.lineOf w.drawnCurrent with
  | some line =>
    refine ((drawHighlight_offered h hfull r w line .erase).bind_always fun _ =>
      (drawHighlight_offered h hfull r w _ .draw).bind_always fun _ =>
        hold.bind fun _ => hnew).congr ?_
    tauto
  | none =>
    refine ((drawHighlight_offered h hfull r w _ .draw).bind_always fun _ => hnew).congr ?_
    tauto

end Framed

/-- What a framed redraw asks for besides full graphics. -/
def Equipped (all : Capabilities) (w : Window) (clear : Bool) : Prop :=
  (clear = true ∨ rowsDue w clear ≠ [] → all.includes .graphics = true) ∧
    (clear = true ∨ w.current ∈ rowsDue w clear → all.includes .drawMode = true)

theorem redrawFramed_offered (h : Advertises I all) (hfull : all.includes .fullGraphics = true)
    {content : Content σ} (hcontent : content.WritesTexts) (r : Renderer) (w : Window) (clear : Bool) :
    OfferedIf I (Equipped all w clear) (r.redrawFramed w content clear) := by
  unfold Equipped redrawFramed rowsDue redrawDue
  cases clear with
  | true =>
    refine ((drawAll_offered h hfull hcontent r w).bind fun _ => OfferedIf.pure _).congr ?_
    simp
  | false =>
    simp only [Bool.false_eq_true, if_false, false_or]
    cases hstart : w.startChanged with
    | true =>
      refine ((drawMoved_offered h hfull hcontent r w).bind fun _ => OfferedIf.pure _).congr ?_
      simp
    | false =>
      simp only [Bool.false_eq_true, if_false]
      cases hcurrent : w.currentChanged with
      | true =>
        refine ((drawHighlightMoved_offered h hfull hcontent r w).bind fun _ => OfferedIf.pure _).congr ?_
        simp
      | false => exact (OfferedIf.pure _).congr (by simp)

theorem outcome_refresh (r : Renderer) (content : Content σ) (clear : Bool) (w : Window) (s : σ) :
    (r.refresh content clear).outcome (w, s) = (r.redraw w content clear).outcome s := by
  unfold Action.outcome refresh
  dsimp only
  cases r.redraw w content clear s <;> rfl

theorem redraw_offered (h : Advertises I all) {content : Content σ} (hcontent : content.WritesTexts)
    {r : Renderer} (hr : r.fullGraphics = all.includes .fullGraphics) (w : Window) (clear : Bool) :
    OfferedIf I (all.includes .fullGraphics = true → Equipped all w clear)
      (r.redraw w content clear) := by
  unfold redraw
  rw [hr]
  refine OfferedIf.ite (fun hfull => ?_) fun hpart => ?_
  · exact (redrawFramed_offered h hfull hcontent r w clear).congr (by simp [hfull])
  · exact ((redrawText_offered h w hcontent clear).bind_always fun _ => OfferedIf.pure _).congr
      (by simp [hpart])

/-- On a display that offers what it advertises and nothing else, and never fails otherwise, with any rows of
text and any window: a redraw by the renderer for the display is unsupported exactly if the display has full
graphics and rows are due, and it cannot place text by the pixel, or the highlighted row is among them and it
cannot invert text. A redraw that clears writes a title in both ways too. In all other cases it answers, and
a page that is no menu is always written. -/
theorem refresh_unsupported_iff (h : Advertises I all) {fresh s : σ} (hfresh : I fresh) (hs : I s)
    {content : Content σ} (hcontent : content.WritesTexts) (w : Window) (clear : Bool) :
    let result := ((forDisplay fresh).refresh content clear).outcome (w, s)
    (result = .error .unsupported ↔
      all.includes .fullGraphics = true ∧
        ((clear = true ∨ rowsDue w clear ≠ []) ∧ all.includes .graphics = false ∨
          (clear = true ∨ w.current ∈ rowsDue w clear) ∧ all.includes .drawMode = false)) ∧
      (result ≠ .error .unsupported → ∃ kind, result = .ok kind) ∧
      (redrawPage w content clear).outcome s = .ok () := by
  intro result
  have hresult : result = ((forDisplay fresh).redraw w content clear).outcome s :=
    outcome_refresh _ content clear w s
  have hfull : (forDisplay fresh).fullGraphics = all.includes .fullGraphics :=
    congrArg (Capabilities.includes · .fullGraphics) (h.capabilities fresh hfresh)
  have hlacks : (¬ (all.includes .fullGraphics = true → Equipped all w clear)) ↔
      all.includes .fullGraphics = true ∧
        ((clear = true ∨ rowsDue w clear ≠ []) ∧ all.includes .graphics = false ∨
          (clear = true ∨ w.current ∈ rowsDue w clear) ∧ all.includes .drawMode = false) := by
    unfold Equipped
    rw [← Bool.not_eq_true, ← Bool.not_eq_true]
    tauto
  have hpage : (redrawPage w content clear).outcome s = .ok () := by
    rcases (redrawPage_offered h w hcontent clear).outcome_eq hs with ⟨-, a, ha⟩ | ⟨hnot, -⟩
    · exact ha
    · exact absurd trivial hnot
  rw [hresult, ← hlacks]
  rcases (redraw_offered h hcontent hfull w clear).outcome_eq hs with ⟨hall, kind, hkind⟩ | ⟨hnot, herror⟩
  · rw [hkind]
    exact ⟨⟨nofun, fun hnot => absurd hall hnot⟩, fun _ => ⟨kind, rfl⟩, hpage⟩
  · exact ⟨⟨fun _ => hnot, fun _ => herror⟩, fun hne => absurd herror hne, hpage⟩

end Renderer

namespace Recorder

/-- No call fails, and the display has a size exactly if it has full graphics. -/
structure Faultless (all : Capabilities) (r : Recorder) : Prop where
  capabilities : r.capabilities = all
  fails : r.faults.fails = fun _ => false
  dimensions : r.dimensions.isSome = all.includes .fullGraphics

variable {all : Capabilities}

theorem receive_offered (call : DisplayCall) {move : Recorder → Recorder}
    (hmove : ∀ r, r.Faultless all → (move r).Faultless all) :
    OfferedIf (Faultless all) True (receive call move) := by
  intro r hr
  have hnow : r.faults.now = false := by
    unfold Faults.now
    rw [hr.fails]
  simp only [receive, hnow, Bool.false_eq_true, if_false]
  exact ⟨trivial, hmove _ ⟨hr.capabilities, hr.fails, hr.dimensions⟩⟩

theorem receiveWith_offered (needed : Capabilities) (call : DisplayCall) {move : Recorder → Recorder}
    (hmove : ∀ r, r.Faultless all → (move r).Faultless all) :
    OfferedIf (Faultless all) (all.includes needed = true) (receiveWith needed call move) := by
  intro r hr
  have hreceive := receive_offered call hmove r hr
  unfold receiveWith
  rw [hr.capabilities]
  cases hneeded : all.includes needed with
  | true => simpa [hneeded] using hreceive
  | false => simpa [hneeded] using hr

theorem moveTo_faultless (x y : Nat) (r : Recorder) (hr : r.Faultless all) :
    (r.moveTo x y).Faultless all :=
  ⟨hr.capabilities, hr.fails, hr.dimensions⟩

theorem advertises (all : Capabilities) : Advertises (Faultless all) all where
  capabilities _ hr := hr.capabilities
  clear := receive_offered _ fun _ hr => hr
  setCursor _ _ := receive_offered _ (moveTo_faultless _ _)
  write _ := receive_offered _ fun r hr => moveTo_faultless _ _ r hr
  setCursorAt _ _ := receiveWith_offered _ _ (moveTo_faultless _ _)
  cursor r hr := by
    change KnownIf _ (if r.capabilities.includes .graphics then _ else _)
    rw [hr.capabilities]
    cases hall : all.includes .graphics with
    | true => exact rfl
    | false => exact ⟨Bool.false_ne_true, rfl⟩
  pixel _ _ _ := receiveWith_offered _ _ fun _ hr => hr
  horizontal _ _ _ _ := receiveWith_offered _ _ fun _ hr => hr
  vertical _ _ _ _ := receiveWith_offered _ _ fun _ hr => hr
  box _ _ _ _ _ := receiveWith_offered _ _ fun _ hr => hr
  dimensions r hr := by
    have hsize := hr.dimensions
    cases hask : r.dimensions with
    | some size =>
      rw [hask] at hsize
      simpa [Display.dimensions, hask, KnownIf] using hsize.symm
    | none =>
      rw [hask] at hsize
      simpa [Display.dimensions, hask, KnownIf] using hsize.symm
  setMode _ := receiveWith_offered _ _ fun _ hr => hr

end Recorder

namespace Renderer

/-- A display that paints boxes and lines and has no other optional operation. -/
def boxesOnly : Recorder where
  capabilities := .fullGraphics
  dimensions := some (128, 64)
  textLines := 6
  resolution := 4

theorem boxesOnly_faultless : boxesOnly.Faultless .fullGraphics := ⟨rfl, rfl, by decide⟩

def oneLabel : Content Recorder := { writeRow := fun _ => Display.write "a" }

theorem oneLabel_writesTexts : oneLabel.WritesTexts := by
  intro row
  refine ⟨["a"], ?_⟩
  rw [List.forM_eq_forM, List.forM_cons, List.forM_nil, bind_pure_unit]
  rfl

/-- A menu of one row is drawn for the first time, for a display whose renderer frames it. -/
theorem refresh_unsupported_of_boxesOnly :
    ((forDisplay boxesOnly).refresh oneLabel true).outcome (Window.ofRows 1 6, boxesOnly) =
      .error .unsupported :=
  (refresh_unsupported_iff (Recorder.advertises .fullGraphics) boxesOnly_faultless boxesOnly_faultless
    oneLabel_writesTexts (Window.ofRows 1 6) true).1.mpr
    ⟨by decide, Or.inl ⟨Or.inl rfl, by decide⟩⟩

/-- A display may offer what it advertises and never fail otherwise, and the renderer made for it calls an
operation that the display does not advertise. -/
theorem redraw_uses_unadvertised :
    ∃ (all : Capabilities) (r : Recorder), Advertises (Recorder.Faultless all) all ∧
      r.Faultless all ∧ oneLabel.WritesTexts ∧
      ((forDisplay r).refresh oneLabel true).outcome (Window.ofRows 1 6, r) = .error .unsupported :=
  ⟨.fullGraphics, boxesOnly, Recorder.advertises _, boxesOnly_faultless, oneLabel_writesTexts,
    by decide +kernel⟩

end Renderer

end FrontPanel
