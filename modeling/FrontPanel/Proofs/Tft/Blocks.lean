import FrontPanel.Proofs.Tft.Traffic
import FrontPanel.Tft.Text

/-!
# Painting by blocks

A fill sends one block at most, and a character one or many, on either of its two paths. What they leave in
the memory of the chip is a layer of the screen: it is cut off at the edges and moved by the offsets.
-/

namespace FrontPanel

set_option autoImplicit false

namespace Tft

open FrontPanel.Action

/-- Started, with a screen that the addresses of the chip can tell in full. -/
structure Drawable (d : Tft) : Prop where
  initialized : d.initialized = true
  width_le : d.offsetX + d.width ≤ 65536
  height_le : d.offsetY + d.height ≤ 65536

theorem Drawable.of_bus {d t : Tft} (hd : d.Drawable) (ht : t = { d with bus := t.bus }) :
    t.Drawable := by
  rw [ht]
  exact ⟨hd.initialized, hd.width_le, hd.height_le⟩

/-- A layer of the screen as it lies in memory. -/
def inMemory (d : Tft) (l : Layer) : Layer := Layer.stamp d.offsetX d.offsetY d.width d.height l

/-- The addresses are from the first ones on, and before the last ones. -/
structure Block.Within (left right top bottom : Nat) (b : Block) : Prop where
  left_le : left ≤ b.left
  le_right : b.left + b.width ≤ right
  top_le : top ≤ b.top
  le_bottom : b.top + b.height ≤ bottom

theorem Block.Within.mono {left left' right right' top top' bottom bottom' : Nat} {b : Block}
    (h : b.Within left right top bottom) (hleft : left' ≤ left) (hright : right ≤ right')
    (htop : top' ≤ top) (hbottom : bottom ≤ bottom') : b.Within left' right' top' bottom' :=
  ⟨Nat.le_trans hleft h.left_le, Nat.le_trans h.le_right hright, Nat.le_trans htop h.top_le,
    Nat.le_trans h.le_bottom hbottom⟩

/-- The display is `d` but for its bus, no transfer fails, and since `d` only blocks with `P` were sent.
They have put a layer on the screen. -/
structure Painted (d : Tft) (P : Block → Prop) (l : Layer) (t : Tft) : Prop where
  sent : ∃ blocks : List Block,
    Sent d (blocks.flatMap (Block.traffic d.hasSelect)) t ∧ ∀ b ∈ blocks, P b
  memory : ∀ memory, (t.chip memory).memory = (d.inMemory l).on (d.chip memory).memory

theorem Painted.refl {d : Tft} (P : Block → Prop) (h : d.bus.Faultless) :
    Painted d P Layer.blank d := by
  refine ⟨⟨[], Sent.refl h, by simp⟩, fun memory => ?_⟩
  rw [inMemory, Layer.stamp_blank]
  rfl

theorem Painted.same {d t : Tft} {P : Block → Prop} {l : Layer} (h : Painted d P l t) :
    t = { d with bus := t.bus } :=
  h.sent.elim fun _ h => h.1.same

theorem Painted.faultless {d t : Tft} {P : Block → Prop} {l : Layer} (h : Painted d P l t) :
    t.bus.Faultless :=
  h.sent.elim fun _ h => h.1.faultless

def Paints {α : Type} (d : Tft) (P : Block → Prop) (x : Action TftError Tft α) (l : Layer) : Prop :=
  ∀ lower, Answers (Painted d P lower) x fun _ => Painted d P (l.onto lower)

namespace Paints

variable {α β : Type} {d : Tft} {P : Block → Prop} {k l : Layer}

theorem pure (a : α) : Paints d P (Pure.pure a) Layer.blank :=
  fun _ => Ensures.pure fun _ ht => ht

theorem bind {x : Action TftError Tft α} {f : α → Action TftError Tft β} (hx : Paints d P x l)
    (hf : ∀ a, Paints d P (f a) k) : Paints d P (x >>= f) (k.onto l) := fun lower =>
  Ensures.bind (hx lower) fun a => Layer.onto_assoc k l lower ▸ hf a (l.onto lower)

theorem get_bind {f : Tft → Action TftError Tft β}
    (h : ∀ t, t = { d with bus := t.bus } → Paints d P (f t) l) : Paints d P (get >>= f) l :=
  fun lower => Ensures.get_bind fun t ht => (h t ht.same lower).mono_pre fun _ hs => hs ▸ ht

theorem ite {c : Prop} [Decidable c] {x y : Action TftError Tft α} (hx : c → Paints d P x l)
    (hy : ¬ c → Paints d P y l) : Paints d P (if c then x else y) l := by
  split
  · exact hx ‹_›
  · exact hy ‹_›

/-- Layers that look the same on the screen are the same in memory. -/
theorem congr {x : Action TftError Tft α} (h : Paints d P x k)
    (hkl : ∀ x y, x < d.width → y < d.height → k x y = l x y) : Paints d P x l := by
  have hmemory : d.inMemory k = d.inMemory l := Layer.stamp_congr hkl
  refine fun lower => (h lower).mono_post fun _ t ht => ⟨ht.sent, fun memory => ?_⟩
  rw [ht.memory, inMemory, inMemory, Layer.stamp_onto, Layer.stamp_onto]
  exact congrArg (fun upper : Layer => (upper.onto _).on _) hmemory

theorem forM {γ : Type} {items : List γ} {f : γ → Action TftError Tft PUnit} {layer : γ → Layer}
    (h : ∀ i ∈ items, Paints d P (f i) (layer i)) :
    Paints d P (items.forM f) (Layer.pile (items.map layer)) := by
  induction items with
  | nil => exact Paints.pure _
  | cons i items ih =>
    rw [List.forM_eq_forM, List.forM_cons]
    refine Paints.bind (h i List.mem_cons_self) fun _ => ?_
    exact ih fun j hj => h j (List.mem_cons_of_mem i hj)

theorem block {x : Action TftError Tft α} {b : Block} (hx : Sends d x (b.traffic d.hasSelect))
    (hexact : b.IsExact) (hP : P b) {f : Nat → Nat → Color}
    (hf : b.chunks.flatten = Chip.rowMajor b.width b.height f)
    (hl : d.inMemory l = Layer.area b.left b.top b.width b.height f) : Paints d P x l := by
  intro lower t ht
  obtain ⟨blocks, hsent, hblocks⟩ := ht.sent
  obtain ⟨_, t', hrun, hsent'⟩ := (hx _).exists_ok hsent
  rw [hrun]
  refine ⟨⟨blocks ++ [b], ?_, ?_⟩, fun memory => ?_⟩
  · rw [List.flatMap_append, List.flatMap_singleton]
    exact hsent'
  · simp only [List.mem_append, List.mem_singleton]
    rintro b' (hb' | rfl)
    · exact hblocks b' hb'
    · exact hP
  · have hselect : (t.chip memory).hasSelect = d.hasSelect := by rw [chip_hasSelect, hsent.same]
    have hpaint := Chip.memory_hearAll_traffic hexact hf (t.chip memory)
    rw [hselect, ht.memory, ← hl, ← Layer.onto_on] at hpaint
    rw [hsent'.chip, Chip.hearAll_append, ← hsent.chip, hpaint, inMemory, inMemory, inMemory,
      Layer.stamp_onto]

end Paints

/-- Some pixel of the rectangle is on the screen. -/
def Meets (d : Tft) (x y width height : Nat) : Prop :=
  ∃ px py, (px < d.width ∧ py < d.height) ∧ (x ≤ px ∧ px < x + width) ∧ y ≤ py ∧ py < y + height

theorem meets_iff {d : Tft} {x y width height : Nat} :
    d.Meets x y width height ↔ (x < d.width ∧ 0 < width) ∧ y < d.height ∧ 0 < height := by
  constructor
  · rintro ⟨px, py, hscreen, hx, hy⟩
    omega
  · rintro ⟨hx, hy⟩
    exact ⟨x, y, ⟨hx.1, hy.1⟩, by omega, by omega⟩

section Drawing

variable {d : Tft}

/-- A block at a place of the screen. -/
def blockAt (d : Tft) (x y width height : Nat) (chunks : List (List Color)) : Block :=
  ⟨d.offsetX + x, d.offsetY + y, width, height, chunks⟩

section Place

variable (hd : d.Drawable) {x y width height : Nat} (hwidth : 0 < width) (hheight : 0 < height)
variable (hx : x + width ≤ d.width) (hy : y + height ≤ d.height)
include hd hwidth hheight hx hy

theorem blockAt_exact {chunks : List (List Color)}
    (hchunks : chunks.flatten.length = width * height) :
    (d.blockAt x y width height chunks).IsExact := by
  have hright := hd.width_le
  have hbottom := hd.height_le
  have hcolumns : d.offsetX + x + width ≤ 65536 := by omega
  have hrows : d.offsetY + y + height ≤ 65536 := by omega
  exact ⟨hwidth, hheight, hcolumns, hrows, hchunks⟩

theorem blockAt_sends {pixels : Action TftError Tft Unit} {chunks : List (List Color)}
    (hpixels : Sends d pixels (chunks.map pixelWrite)) :
    Sends d
      (transaction do
        sendWindow x y width height
        pixels)
      ((d.blockAt x y width height chunks).traffic d.hasSelect) := by
  have hright := hd.width_le
  have hbottom := hd.height_le
  have hwindow := sendWindow_sends (d := d) x y width height
  rw [Number.plus_eq (a := x) (by omega), Number.plus_eq (a := y) (by omega),
    Number.plus_eq (by omega), Number.plus_eq (by omega), Nat.add_comm x, Nat.add_comm y] at hwindow
  exact Sends.transaction (hwindow.bind fun _ => hpixels)

end Place

theorem blockAt_within {x y width height right bottom : Nat} (hx : x + width ≤ right)
    (hy : y + height ≤ bottom) (chunks : List (List Color)) :
    (d.blockAt x y width height chunks).Within
      (d.offsetX + x) (d.offsetX + right) (d.offsetY + y) (d.offsetY + bottom) := by
  have hright : d.offsetX + x + width ≤ d.offsetX + right := by omega
  have hbottom : d.offsetY + y + height ≤ d.offsetY + bottom := by omega
  exact ⟨Nat.le_refl _, hright, Nat.le_refl _, hbottom⟩

/-- The part of a rectangle that is on the screen, in one color. -/
def fillBlock (d : Tft) (x y width height : Nat) (color : Color) : Block :=
  d.blockAt x y (min width (d.width - x)) (min height (d.height - y))
    (chunked color (min width (d.width - x) * min height (d.height - y)))

theorem fillBlock_exact (hd : d.Drawable) {x y width height : Nat} (h : d.Meets x y width height)
    (color : Color) : (d.fillBlock x y width height color).IsExact := by
  have hmeets := meets_iff.mp h
  refine blockAt_exact hd (by omega) (by omega) (by omega) (by omega) ?_
  rw [flatten_chunked, List.length_replicate]

theorem fillBlock_within {x y width height : Nat} (h : d.Meets x y width height) (color : Color) :
    (d.fillBlock x y width height color).Within
      (d.offsetX + x) (d.offsetX + min (x + width) d.width)
      (d.offsetY + y) (d.offsetY + min (y + height) d.height) := by
  have hmeets := meets_iff.mp h
  exact blockAt_within (by omega) (by omega) _

theorem fillRect_of_not_meets (hd : d.initialized = true) {x y width height : Nat}
    (h : ¬ d.Meets x y width height) (color : Color) :
    fillRect x y width height color d = .ok () d := by
  have hout : d.width ≤ x ∨ d.height ≤ y ∨ width = 0 ∨ height = 0 := by
    have hmeets := mt meets_iff.mpr h
    omega
  unfold fillRect
  refine (bind_of_ok rfl).trans ?_
  rw [if_neg (by simp [hd]), if_pos hout]
  rfl

theorem fillRect_sends (hd : d.Drawable) {x y width height : Nat} (h : d.Meets x y width height)
    (color : Color) :
    Sends d (fillRect x y width height color)
      ((d.fillBlock x y width height color).traffic d.hasSelect) := by
  have hmeets := meets_iff.mp h
  unfold fillRect
  refine Sends.get_bind fun t ht => ?_
  have hwidth : t.width = d.width := by rw [ht]
  have hheight : t.height = d.height := by rw [ht]
  have hin : ¬ (d.width ≤ x ∨ d.height ≤ y ∨ width = 0 ∨ height = 0) := by omega
  rw [if_neg (by simp [(hd.of_bus ht).initialized]), hwidth, hheight, if_neg hin]
  exact blockAt_sends hd (by omega) (by omega) (by omega) (by omega) (sendPixels_sends color _)

theorem fillRect_paints (hd : d.Drawable) {P : Block → Prop} {x y width height : Nat} {color : Color}
    (hP : d.Meets x y width height → P (d.fillBlock x y width height color)) :
    Paints d P (fillRect x y width height color) (Layer.rect x y width height color) := by
  by_cases h : d.Meets x y width height
  · have hmeets := meets_iff.mp h
    have hfill : (d.fillBlock x y width height color).chunks.flatten =
        Chip.rowMajor (min width (d.width - x)) (min height (d.height - y)) fun _ _ => color :=
      (flatten_chunked _ _).trans (Chip.rowMajor_const _ _ _).symm
    have hclipped : Paints d P (fillRect x y width height color)
        (Layer.rect x y (min width (d.width - x)) (min height (d.height - y)) color) :=
      Paints.block (fillRect_sends hd h color) (fillBlock_exact hd h color) (hP h) hfill
        (Layer.stamp_area (by omega) (by omega) _)
    refine hclipped.congr fun px py hpx hpy => ?_
    unfold Layer.rect Layer.area
    congr 1
    exact propext (by omega)
  · have hnothing : Paints d P (fillRect x y width height color) Layer.blank := by
      intro lower t ht
      have hsame : t.Meets x y width height ↔ d.Meets x y width height := by
        rw [ht.same]
        rfl
      rw [fillRect_of_not_meets (hd.of_bus ht.same).initialized (mt hsame.mp h)]
      exact ht
    refine hnothing.congr fun px py hpx hpy => ?_
    exact (Layer.rect_of_not_mem color fun hin => h ⟨px, py, ⟨hpx, hpy⟩, hin⟩).symm

/-- What a character puts on its cell: the set pixels in one color, and all others in the other color if
the background is painted. -/
def characterLook (d : Tft) (c : Char) : Layer := fun i j =>
  if Glyph.isSet (Glyph.ofChar c) i j then some d.paint.characterColors.1
  else if d.paint.withBackground then some d.paint.characterColors.2
  else none

def characterLayer (d : Tft) (x y : Nat) (c : Char) : Layer :=
  Layer.stamp x y Glyph.width Glyph.height (d.characterLook c)

theorem characterLayer_of_background (hd : d.paint.withBackground = true) (x y : Nat) (c : Char) :
    d.characterLayer x y c =
      Layer.cell x y (Glyph.ofChar c) d.paint.characterColors.1 d.paint.characterColors.2 := by
  have hlook (i j : Nat) : d.characterLook c i j =
      some (if Glyph.isSet (Glyph.ofChar c) i j then d.paint.characterColors.1
        else d.paint.characterColors.2) := by
    rw [characterLook, if_pos hd]
    split <;> rfl
  funext i j
  rw [characterLayer, Layer.stamp, hlook]
  rfl

theorem raster_rowMajor (c : Char) (set clear : Color) :
    ((Glyph.raster c).flatMap fun on => twoBytes (if on then set else clear).toNat) =
      (Chip.rowMajor Glyph.width Glyph.height fun i j =>
        if Glyph.isSet (Glyph.ofChar c) i j then set else clear).flatMap
          fun k => twoBytes k.toNat := by
  simp only [Glyph.raster, Glyph.places, Chip.rowMajor, List.flatMap_map, List.map_flatMap,
    List.flatMap_assoc, List.map_map]
  rfl

/-- The block is exact, and lies in the part of a cell that is on the screen. -/
def Block.InCell (d : Tft) (x y : Nat) (b : Block) : Prop :=
  b.IsExact ∧ b.Within
    (d.offsetX + x) (d.offsetX + min (x + Glyph.width) d.width)
    (d.offsetY + y) (d.offsetY + min (y + Glyph.height) d.height)

theorem sendCell_paints (hd : d.Drawable) (hback : d.paint.withBackground = true) {x y : Nat}
    (hx : x + Glyph.width ≤ d.width) (hy : y + Glyph.height ≤ d.height) (c : Char) :
    Paints d (Block.InCell d x y) (sendCell x y c) (d.characterLayer x y c) := by
  let pixels := Chip.rowMajor Glyph.width Glyph.height fun i j =>
    if Glyph.isSet (Glyph.ofChar c) i j then d.paint.characterColors.1
    else d.paint.characterColors.2
  have hwrite : Sends d
      (onBus (SerialBus.write ((Glyph.raster c).flatMap fun on =>
        twoBytes (if on then d.paint.characterColors.1 else d.paint.characterColors.2).toNat)))
      ([pixels].map pixelWrite) := by
    rw [raster_rowMajor]
    exact Sends.write _
  have hsends : Sends d (sendCell x y c)
      ((d.blockAt x y Glyph.width Glyph.height [pixels]).traffic d.hasSelect) := by
    unfold sendCell
    refine Sends.get_bind fun t ht => ?_
    have hpaint : t.paint = d.paint := by rw [ht]
    rw [hpaint]
    exact blockAt_sends hd (by decide) (by decide) hx hy hwrite
  have hexact : (d.blockAt x y Glyph.width Glyph.height [pixels]).IsExact :=
    blockAt_exact hd (by decide) (by decide) hx hy rfl
  have hcell : (d.blockAt x y Glyph.width Glyph.height [pixels]).InCell d x y :=
    ⟨hexact, blockAt_within (by omega) (by omega) _⟩
  refine Paints.block hsends hexact hcell List.flatten_singleton ?_
  rw [characterLayer_of_background hback]
  exact Layer.stamp_area hx hy _

theorem paintPlace_paints (hd : d.Drawable) (x y : Nat) (c : Char) {place : Nat × Nat}
    (hplace : place ∈ Glyph.places) :
    Paints d (Block.InCell d x y) (paintPlace x y (Glyph.ofChar c) place)
      (Layer.stamp (x + place.1) (y + place.2) 1 1 fun _ _ => d.characterLook c place.1 place.2) := by
  have hright := hd.width_le
  have hbottom := hd.height_le
  have hinside := Layer.mem_places.mp hplace
  have hfill (color : Color) :
      Paints d (Block.InCell d x y)
        (fillRect (x + place.1) (y + place.2) 1 1 color)
        (Layer.rect (x + place.1) (y + place.2) 1 1 color) := by
    refine fillRect_paints hd fun hmeets => ⟨fillBlock_exact hd hmeets color, ?_⟩
    exact (fillBlock_within hmeets color).mono (by omega) (by omega) (by omega) (by omega)
  have hnothing : Paints d (Block.InCell d x y) (Pure.pure ()) Layer.blank :=
    Paints.pure ()
  unfold paintPlace
  refine Paints.get_bind fun t ht => ?_
  have hpaint : t.paint = d.paint := by rw [ht]
  simp only [hpaint]
  refine Paints.ite (fun hout => ?_) fun _ => ?_
  · -- a coordinate that does not exist is not on the screen
    refine hnothing.congr fun px py hpx hpy => ?_
    unfold Number.maxCoordinate at hout
    exact (if_neg (by omega)).symm
  · unfold characterLook
    refine Paints.ite (fun hset => ?_) fun hclear => Paints.ite (fun hback => ?_) fun hnone => ?_
    · rw [if_pos hset]
      exact hfill _
    · rw [if_neg hclear, if_pos hback]
      exact hfill _
    · rw [if_neg hclear, if_neg hnone]
      exact (Layer.stamp_blank _ _ _ _).symm ▸ hnothing

theorem drawCharacter_paints (hd : d.Drawable) (x y : Nat) (c : Char) :
    Paints d (Block.InCell d x y) (drawCharacter x y c)
      (d.characterLayer x y c) := by
  unfold drawCharacter
  refine Paints.get_bind fun t ht => ?_
  have hpaint : t.paint = d.paint := by rw [ht]
  have hholds : t.holdsCell x y = d.holdsCell x y := by rw [ht]; rfl
  rw [if_neg (by simp [(hd.of_bus ht).initialized]), hpaint, hholds]
  refine Paints.ite (fun hfast => ?_) fun _ => ?_
  · simp only [holdsCell, Bool.and_eq_true, decide_eq_true_eq] at hfast
    exact sendCell_paints hd hfast.1 hfast.2.1 hfast.2.2 c
  · unfold characterLayer
    rw [← Layer.pile_places]
    exact Paints.forM fun place hplace => paintPlace_paints hd x y c hplace

/-- On the screen, across its edges or beyond them, in one window or pixel by pixel: a character puts its
layer into the memory of the chip, and nothing else. All windows that it programs lie in the part of the
cell that is on the screen, their ends being exact sums. -/
theorem character_paints_layer (hd : d.Drawable) (hbus : d.bus.Faultless) (x y : Nat) (c : Char) :
    ∃ t, drawCharacter x y c d = .ok () t ∧ t = { d with bus := t.bus } ∧
      (∃ blocks : List Block,
        t.bus.history = d.bus.history ++ blocks.flatMap (Block.traffic d.hasSelect) ∧
          ∀ b ∈ blocks, b.InCell d x y) ∧
      ∀ memory, (t.chip memory).memory =
        (d.inMemory (d.characterLayer x y c)).on (d.chip memory).memory := by
  obtain ⟨_, t, hrun, ht⟩ :=
    (drawCharacter_paints hd x y c Layer.blank).exists_ok (Painted.refl _ hbus)
  obtain ⟨blocks, hsent, hblocks⟩ := ht.sent
  refine ⟨t, hrun, ht.same, ⟨blocks, hsent.history, hblocks⟩, fun memory => ?_⟩
  rw [ht.memory, Layer.onto_blank]

end Drawing

/-- Started, ten pixels square, and without background. -/
def squareTft : Tft where
  bus := {}
  hasSelect := true
  hasReset := false
  input := none
  config := {}
  width := 10
  height := 10
  offsetX := 5
  offsetY := 7
  paint := { withBackground := false }
  initialized := true

/-- An exclamation mark across a corner of the screen: a pixel of its bar, a clear one beside it, and the
address past the edge. -/
theorem character_paints_corner :
    squareTft.Drawable ∧ squareTft.bus.Faultless ∧
      ∃ t, drawCharacter 7 6 '!' squareTft = .ok () t ∧ ∀ memory,
        (t.chip memory).memory 14 13 = Color.white ∧
          (t.chip memory).memory 13 13 = memory 13 13 ∧
          (t.chip memory).memory 15 13 = memory 15 13 := by
  have hd : squareTft.Drawable := ⟨rfl, by decide, by decide⟩
  have hbus : squareTft.bus.Faultless := fun _ _ => rfl
  obtain ⟨t, hrun, -, -, hmemory⟩ := character_paints_layer hd hbus 7 6 '!'
  refine ⟨hd, hbus, t, hrun, fun memory => ?_⟩
  rw [hmemory]
  exact ⟨rfl, rfl, rfl⟩

end Tft

end FrontPanel
