import FrontPanel.Display.Glyphs
import FrontPanel.Display.Paint

/-!
# Layers of paint

What a drawing operation leaves on a screen: a color for some pixels, and nothing for all others. Later
layers cover earlier ones.
-/

namespace FrontPanel

set_option autoImplicit false

abbrev Screen := Nat → Nat → Color

def Layer := Nat → Nat → Option Color

namespace Layer

def blank : Layer := fun _ _ => none

/-- A rectangle of pixels, each given by its place in the rectangle. -/
def area (left top width height : Nat) (f : Nat → Nat → Color) : Layer := fun x y =>
  if (left ≤ x ∧ x < left + width) ∧ top ≤ y ∧ y < top + height then some (f (x - left) (y - top))
  else none

def rect (left top width height : Nat) (color : Color) : Layer :=
  area left top width height fun _ _ => color

def cell (left top : Nat) (glyph : List Nat) (set clear : Color) : Layer :=
  area left top Glyph.width Glyph.height fun i j => if Glyph.isSet glyph i j then set else clear

/-- The corner of a layer, of the given size, put into its place. -/
def stamp (left top width height : Nat) (l : Layer) : Layer := fun x y =>
  if (left ≤ x ∧ x < left + width) ∧ top ≤ y ∧ y < top + height then l (x - left) (y - top)
  else none

/-- The first layer covers the second one. -/
def onto (upper lower : Layer) : Layer := fun x y => (upper x y).or (lower x y)

def pile : List Layer → Layer
  | [] => blank
  | l :: ls => (pile ls).onto l

def on (l : Layer) (s : Screen) : Screen := fun x y => (l x y).getD (s x y)

theorem onto_on (upper lower : Layer) (s : Screen) :
    (upper.onto lower).on s = upper.on (lower.on s) := by
  funext x y
  simp only [on, onto]
  cases upper x y <;> rfl

@[simp] theorem onto_blank (l : Layer) : l.onto blank = l := by
  funext x y
  simp only [onto, blank, Option.or_none]

@[simp] theorem blank_onto (l : Layer) : blank.onto l = l := rfl

theorem onto_assoc (k l n : Layer) : (k.onto l).onto n = k.onto (l.onto n) := by
  funext x y
  simp only [onto, Option.or_assoc]

theorem stamp_blank (left top width height : Nat) : stamp left top width height blank = blank := by
  funext x y
  exact ite_self none

theorem stamp_onto (left top width height : Nat) (upper lower : Layer) :
    stamp left top width height (upper.onto lower) =
      (stamp left top width height upper).onto (stamp left top width height lower) := by
  funext x y
  simp only [stamp, onto]
  split <;> rfl

theorem stamp_congr {left top width height : Nat} {k l : Layer}
    (h : ∀ i j, i < width → j < height → k i j = l i j) :
    stamp left top width height k = stamp left top width height l := by
  funext x y
  unfold stamp
  split
  · exact h _ _ (by omega) (by omega)
  · rfl

/-- An area that a stamp holds in full is moved by it. -/
theorem stamp_area {left top width height x y w h : Nat} (hx : x + w ≤ width) (hy : y + h ≤ height)
    (f : Nat → Nat → Color) :
    stamp left top width height (area x y w h f) = area (left + x) (top + y) w h f := by
  funext i j
  unfold stamp area
  by_cases hin : (left + x ≤ i ∧ i < left + x + w) ∧ top + y ≤ j ∧ j < top + y + h
  · rw [if_pos (by omega), if_pos (by omega), if_pos hin, Nat.sub_sub, Nat.sub_sub]
  · rw [if_neg hin]
    split
    · exact if_neg (by omega)
    · rfl

theorem rect_of_mem {left top width height x y : Nat} (color : Color)
    (hx : left ≤ x ∧ x < left + width) (hy : top ≤ y ∧ y < top + height) :
    rect left top width height color x y = some color := if_pos ⟨hx, hy⟩

theorem rect_of_not_mem {left top width height x y : Nat} (color : Color)
    (h : ¬ ((left ≤ x ∧ x < left + width) ∧ top ≤ y ∧ y < top + height)) :
    rect left top width height color x y = none := if_neg h

theorem area_isSome {left top width height x y : Nat} {f : Nat → Nat → Color} :
    (area left top width height f x y).isSome = true ↔
      (left ≤ x ∧ x < left + width) ∧ top ≤ y ∧ y < top + height := by
  unfold area
  split
  · rename_i hin
    exact ⟨fun _ => hin, fun _ => rfl⟩
  · rename_i hout
    exact ⟨fun h => by simp at h, fun h => absurd h hout⟩

theorem rect_isSome {left top width height x y : Nat} {color : Color} :
    (rect left top width height color x y).isSome = true ↔
      (left ≤ x ∧ x < left + width) ∧ top ≤ y ∧ y < top + height := area_isSome

theorem onto_isSome {upper lower : Layer} {x y : Nat} :
    (upper.onto lower x y).isSome = true ↔
      (upper x y).isSome = true ∨ (lower x y).isSome = true := by
  simp only [onto, Option.isSome_or, Bool.or_eq_true]

theorem onto_of_isSome {upper lower : Layer} {x y : Nat} (h : (upper x y).isSome = true) :
    upper.onto lower x y = upper x y := by
  obtain ⟨color, hcolor⟩ := Option.isSome_iff_exists.mp h
  simp only [onto, hcolor, Option.some_or]

theorem onto_of_not_isSome {upper lower : Layer} {x y : Nat} (h : ¬ (upper x y).isSome = true) :
    upper.onto lower x y = lower x y := by
  have hnone : upper x y = none := Option.not_isSome_iff_eq_none.mp h
  simp only [onto, hnone, Option.none_or]

theorem onto_of_covers {upper lower rest : Layer}
    (h : ∀ x y, (lower x y).isSome = true → (upper x y).isSome = true) :
    upper.onto (lower.onto rest) = upper.onto rest := by
  funext x y
  by_cases hupper : (upper x y).isSome = true
  · rw [onto_of_isSome hupper, onto_of_isSome hupper]
  · have hlower : ¬ (lower x y).isSome = true := fun hl => hupper (h x y hl)
    rw [onto_of_not_isSome hupper, onto_of_not_isSome hupper, onto_of_not_isSome hlower]

theorem onto_comm {k l rest : Layer} (h : ∀ x y, k x y = none ∨ l x y = none) :
    k.onto (l.onto rest) = l.onto (k.onto rest) := by
  funext x y
  rcases h x y with h | h
  · simp only [onto, h, Option.none_or]
  · simp only [onto, h, Option.none_or]

theorem pile_eq_none {ls : List Layer} {x y : Nat} (h : ∀ l ∈ ls, l x y = none) :
    pile ls x y = none := by
  induction ls with
  | nil => rfl
  | cons l ls ih =>
    simp only [pile, onto, h l List.mem_cons_self,
      ih fun k hk => h k (List.mem_cons_of_mem l hk), Option.or_none]

/-- Where every layer of a pile paints the same color if it paints at all, and some layer does, the pile
has this color. -/
theorem pile_eq_some {ls : List Layer} {x y : Nat} {color : Color}
    (hone : ∃ l ∈ ls, l x y = some color) (hall : ∀ l ∈ ls, l x y = none ∨ l x y = some color) :
    pile ls x y = some color := by
  induction ls with
  | nil => simp at hone
  | cons l ls ih =>
    have hrest : ∀ k ∈ ls, k x y = none ∨ k x y = some color :=
      fun k hk => hall k (List.mem_cons_of_mem l hk)
    by_cases hup : ∃ k ∈ ls, k x y = some color
    · simp only [pile, onto, ih hup hrest, Option.some_or]
    · have hnone : ∀ k ∈ ls, k x y = none := fun k hk =>
        (hrest k hk).resolve_right fun hs => hup ⟨k, hk, hs⟩
      obtain ⟨k, hk, hs⟩ := hone
      rcases List.mem_cons.mp hk with rfl | hk
      · simp only [pile, onto, pile_eq_none hnone, Option.none_or, hs]
      · exact absurd ⟨k, hk, hs⟩ hup

theorem pile_alone {ls : List Layer} {l : Layer} {x y : Nat} (hl : l ∈ ls)
    (hall : ∀ k ∈ ls, k x y = none ∨ k x y = l x y) : pile ls x y = l x y := by
  cases h : l x y with
  | none =>
    apply pile_eq_none
    intro k hk
    rcases hall k hk with hk | hk
    · exact hk
    · exact hk.trans h
  | some color =>
    apply pile_eq_some ⟨l, hl, h⟩
    intro k hk
    rw [← h]
    exact hall k hk

/-- The top row, the left edge and all that lies behind a layer make this layer a whole rectangle. -/
theorem pile_padding {left top width height last : Nat} (color : Color) {inner : Layer}
    (hlast : left + 1 ≤ last ∧ last ≤ left + width) (hheight : 0 < height)
    (hinner : ∀ x y, (inner x y).isSome = true ↔
      (left + 1 ≤ x ∧ x < last) ∧ top + 1 ≤ y ∧ y < top + height) :
    pile [
      rect left top width 1 color,
      rect left top 1 height color,
      inner,
      rect last (top + 1) (left + width - last) (height - 1) color] =
        inner.onto (rect left top width height color) := by
  funext x y
  have hin := hinner x y
  simp only [pile, onto, blank, Option.none_or]
  by_cases hbehind : (last ≤ x ∧ x < last + (left + width - last)) ∧
      top + 1 ≤ y ∧ y < top + 1 + (height - 1)
  · have hnone : inner x y = none := Option.not_isSome_iff_eq_none.mp fun h => by
      have hmem := hin.mp h
      omega
    rw [rect_of_mem color hbehind.1 hbehind.2, hnone, Option.some_or, Option.none_or]
    exact (rect_of_mem color (by omega) (by omega)).symm
  · rw [rect_of_not_mem color hbehind, Option.none_or]
    by_cases hsome : (inner x y).isSome = true
    · obtain ⟨c, hc⟩ := Option.isSome_iff_exists.mp hsome
      rw [hc]
      rfl
    · have hnone : inner x y = none := Option.not_isSome_iff_eq_none.mp hsome
      rw [hin] at hsome
      rw [hnone, Option.none_or, Option.none_or]
      by_cases hedge : (left ≤ x ∧ x < left + 1) ∧ top ≤ y ∧ y < top + height
      · rw [rect_of_mem color hedge.1 hedge.2, Option.some_or]
        exact (rect_of_mem color (by omega) (by omega)).symm
      · rw [rect_of_not_mem color hedge, Option.none_or]
        unfold rect area
        congr 1
        exact propext (by omega)

theorem mem_places {i j : Nat} : (i, j) ∈ Glyph.places ↔ i < Glyph.width ∧ j < Glyph.height := by
  simp only [Glyph.places, List.mem_flatMap, List.mem_map, List.mem_range, Prod.mk.injEq]
  constructor
  · rintro ⟨_, hj, _, hi, rfl, rfl⟩
    exact ⟨hi, hj⟩
  · rintro ⟨hi, hj⟩
    exact ⟨j, hj, i, hi, rfl, rfl⟩

/-- A cell that is painted place by place, each place with its color if it has one. -/
theorem pile_places (left top : Nat) (l : Layer) :
    pile (Glyph.places.map fun place =>
        stamp (left + place.1) (top + place.2) 1 1 fun _ _ => l place.1 place.2) =
      stamp left top Glyph.width Glyph.height l := by
  funext x y
  by_cases hin : (left ≤ x ∧ x < left + Glyph.width) ∧ top ≤ y ∧ y < top + Glyph.height
  · have hplace : (x - left, y - top) ∈ Glyph.places := mem_places.mpr ⟨by omega, by omega⟩
    have hown : stamp (left + (x - left)) (top + (y - top)) 1 1 (fun _ _ => l (x - left) (y - top))
        x y = l (x - left) (y - top) := if_pos (by omega)
    rw [stamp, if_pos hin, ← hown]
    refine pile_alone (List.mem_map.mpr ⟨_, hplace, rfl⟩) fun k hk => ?_
    obtain ⟨⟨i, j⟩, _, rfl⟩ := List.mem_map.mp hk
    by_cases hsame : x = left + i ∧ y = top + j
    · obtain ⟨rfl, rfl⟩ := hsame
      rw [Nat.add_sub_cancel_left, Nat.add_sub_cancel_left]
      exact .inr rfl
    · exact .inl (if_neg (by omega))
  · rw [stamp, if_neg hin]
    refine pile_eq_none fun k hk => ?_
    obtain ⟨⟨i, j⟩, hplace, rfl⟩ := List.mem_map.mp hk
    have hij := mem_places.mp hplace
    exact if_neg (by omega)

def text (colors : Color × Color) : Nat → Nat → List Char → Layer
  | _, _, [] => blank
  | x, y, c :: rest =>
    (text colors (Number.plus x Glyph.width) y rest).onto
      (cell x y (Glyph.ofChar c) colors.1 colors.2)

end Layer

theorem Layer.text_row {colors : Color × Color} {x y px py : Nat} {chars : List Char}
    (h : (text colors x y chars px py).isSome = true) : y ≤ py ∧ py < y + Glyph.height := by
  induction chars generalizing x with
  | nil => simp [text, blank] at h
  | cons c rest ih =>
    rcases onto_isSome.mp h with h | h
    · exact ih h
    · exact (area_isSome.mp h).2

theorem Layer.text_isSome {colors : Color × Color} {x y px py : Nat} {chars : List Char}
    (hend : x + Glyph.width * chars.length < 65536) :
    (text colors x y chars px py).isSome = true ↔
      (x ≤ px ∧ px < x + Glyph.width * chars.length) ∧ y ≤ py ∧ py < y + Glyph.height := by
  induction chars generalizing x with
  | nil =>
    simp only [text, blank, Option.isSome_none, List.length_nil]
    constructor
    · intro h
      cases h
    · omega
  | cons c rest ih =>
    rw [List.length_cons, Nat.mul_succ] at hend ⊢
    have hplus : Number.plus x Glyph.width = x + Glyph.width := Number.plus_eq (by omega)
    have hrest := ih (x := x + Glyph.width) (by omega)
    rw [text, hplus, onto_isSome, hrest, cell, area_isSome]
    have hwidth : 0 < Glyph.width := by decide
    omega

def Glyph.textEnd : Nat → List Char → Nat
  | x, [] => x
  | x, _ :: rest => textEnd (Number.plus x Glyph.width) rest

theorem Glyph.textEnd_eq {x : Nat} {chars : List Char}
    (hend : x + Glyph.width * chars.length < 65536) :
    textEnd x chars = x + Glyph.width * chars.length := by
  induction chars generalizing x with
  | nil => rfl
  | cons c rest ih =>
    rw [List.length_cons, Nat.mul_succ] at hend ⊢
    have hplus : Number.plus x Glyph.width = x + Glyph.width := Number.plus_eq (by omega)
    have hrest := ih (x := x + Glyph.width) (by omega)
    rw [textEnd, hplus, hrest]
    omega

end FrontPanel
