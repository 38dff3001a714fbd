import Mathlib.Data.List.Forall2
import FrontPanel.Proofs.Page.Hooks
import FrontPanel.Proofs.Text.Size

/-!
# The rows of the about page

A row has room for forty bytes, and a character takes one to four of them. What stands in a row is the longest
start of its text that fits and ends behind a whole character. The rows are made anew whenever the page comes
to the top, out of what the page was given, whether they can be drawn or not; ticks leave them alone.
-/

namespace FrontPanel

set_option autoImplicit false

/-- Among the starts of a text that take no more than `room` bytes, the longest. A start is a text itself, so
it ends behind a whole character. -/
structure IsLongestStart (room : Nat) (text start : String) : Prop where
  starts : ∃ rest, text = start ++ rest
  fits : start.utf8ByteSize ≤ room
  longest : ∀ other rest, text = other ++ rest → other.utf8ByteSize ≤ room →
    other.utf8ByteSize ≤ start.utf8ByteSize

/-- Two starts of one text with the same number of bytes have the same bytes. -/
theorem start_unique {start start' rest rest' : String} (h : start ++ rest = start' ++ rest')
    (hsize : start.utf8ByteSize = start'.utf8ByteSize) : start = start' := by
  have hbytes : start.toByteArray ++ rest.toByteArray = start'.toByteArray ++ rest'.toByteArray := by
    rw [← String.toByteArray_append, h, String.toByteArray_append]
  exact String.toByteArray_inj.mp (ByteArray.append_inj_left hbytes hsize)

theorem IsLongestStart.unique {room : Nat} {text start start' : String}
    (h : IsLongestStart room text start) (h' : IsLongestStart room text start') : start = start' := by
  obtain ⟨rest, hrest⟩ := h.starts
  obtain ⟨rest', hrest'⟩ := h'.starts
  apply start_unique (hrest.symm.trans hrest')
  exact Nat.le_antisymm (h'.longest start rest hrest h.fits) (h.longest start' rest' hrest' h'.fits)

namespace AboutPage

theorem fitting_prefix (room : Nat) (cs : List Char) : fitting room cs <+: cs := by
  induction cs generalizing room with
  | nil => exact List.nil_prefix
  | cons c rest ih =>
    unfold fitting
    split
    · exact (List.prefix_cons_inj c).mpr (ih _)
    · exact List.nil_prefix

theorem fitting_fits (room : Nat) (cs : List Char) :
    (String.ofList (fitting room cs)).utf8ByteSize ≤ room := by
  induction cs generalizing room with
  | nil => exact Nat.zero_le room
  | cons c rest ih =>
    unfold fitting
    split
    · have hrest := ih (room - c.utf8Size)
      rw [Text.utf8ByteSize_ofList_cons]
      omega
    · exact Nat.zero_le room

/-- A start that fits does not reach behind the characters that are kept. -/
theorem prefix_fitting {room : Nat} {start cs : List Char} (h : start <+: cs)
    (hfits : (String.ofList start).utf8ByteSize ≤ room) : start <+: fitting room cs := by
  induction start generalizing room cs with
  | nil => exact List.nil_prefix
  | cons c start ih =>
    obtain ⟨rest, rfl⟩ := h
    rw [Text.utf8ByteSize_ofList_cons] at hfits
    have hroom : c.utf8Size ≤ room := by omega
    rw [List.cons_append, fitting, if_pos hroom]
    apply (List.prefix_cons_inj c).mpr
    exact ih (List.prefix_append start rest) (by omega)

theorem lineOf_isLongestStart (label value : String) :
    IsLongestStart maxLineLength (label ++ ": " ++ value) (lineOf label value) where
  starts := by
    obtain ⟨rest, hrest⟩ := fitting_prefix maxLineLength (label ++ ": " ++ value).toList
    refine ⟨String.ofList rest, ?_⟩
    rw [lineOf, ← String.ofList_append, hrest, String.ofList_toList]
  fits := fitting_fits _ _
  longest := by
    intro other rest htext hfits
    have hprefix : other.toList <+: (label ++ ": " ++ value).toList :=
      ⟨rest.toList, by rw [htext, String.toList_append]⟩
    have hroom : (String.ofList other.toList).utf8ByteSize ≤ maxLineLength := by
      rwa [String.ofList_toList]
    have hkept := prefix_fitting hprefix hroom
    rw [lineOf, ← String.ofList_toList (s := other)]
    exact Text.utf8ByteSize_le_of_prefix hkept

/-- The last character takes two bytes, of which only the first would fit. -/
example : lineOf "Version" "0.1.0-nightly+0123456789abcdefé" =
    "Version: 0.1.0-nightly+0123456789abcdef" := by decide

variable {σ β : Type} [Display σ]

/-- A hook of the page runs on a panel. -/
inductive Visit (σ β : Type) where
  | enter (p : Panel σ β)
  | tick (p : Panel σ β)

/-- The page behind a visit, whether its hook answers or fails. -/
def visit (a : AboutPage) : Visit σ β → AboutPage
  | .enter p => (enter.after (a, p)).1
  | .tick p => (tick.after (a, p)).1

/-- `b` was given what `a` was given, and its rows are made of that. -/
structure Made (a b : AboutPage) : Prop where
  fields : b.fields = a.fields
  lines : b.lines = a.makeLines

theorem Made.visited {a b : AboutPage} (h : a.Made b) (v : Visit σ β) : a.Made (b.visit v) := by
  cases v with
  | enter p =>
    have hlines : b.makeLines = a.makeLines := by unfold makeLines; rw [h.fields]
    rw [visit, after_enter]
    exact ⟨h.fields, hlines⟩
  | tick p =>
    rw [visit, after_tick]
    exact ⟨h.fields, h.lines⟩

theorem Made.foldl_visit {a b : AboutPage} (h : a.Made b) (later : List (Visit σ β)) :
    a.Made (later.foldl visit b) := by
  induction later generalizing b with
  | nil => exact h
  | cons v rest ih => exact ih (h.visited v)

/-- Once the page came to the top, and whatever visits follow, its rows are the texts of the fields that are
not empty, in this order, each of them as its longest start of at most forty bytes; no other rows are. -/
theorem rows_of_visits (a : AboutPage) (p : Panel σ β) (later : List (Visit σ β)) :
    let page := (.enter p :: later).foldl visit a
    let given :=
      [("Name", a.identity.machineName), ("Make", a.identity.make), ("Model", a.identity.model),
        ("Firmware", a.firmware), ("Version", a.version)].filter fun field => field.2 ≠ ""
    page.lines.length ≤ 5 ∧
      ∀ rows, page.lines = rows ↔
        List.Forall₂ (fun field row => IsLongestStart 40 (field.1 ++ ": " ++ field.2) row) given rows := by
  intro page given
  have hmade : a.Made (a.visit (.enter p)) := by
    rw [visit, after_enter]
    exact ⟨rfl, rfl⟩
  have hlines : page.lines = a.makeLines := (hmade.foldl_visit later).lines
  have hrows : List.Forall₂ (fun field row => IsLongestStart 40 (field.1 ++ ": " ++ field.2) row) given
      page.lines := by
    rw [hlines]
    apply List.forall₂_map_right_iff.mpr
    exact List.forall₂_same.mpr fun field _ => lineOf_isLongestStart field.1 field.2
  have hunique : Relator.RightUnique fun (field : String × String) row =>
      IsLongestStart 40 (field.1 ++ ": " ++ field.2) row := fun _ _ _ => IsLongestStart.unique
  exact ⟨hlines ▸ a.length_makeLines_le, fun rows =>
    ⟨fun h => h ▸ hrows, List.right_unique_forall₂' hunique hrows⟩⟩

end AboutPage

end FrontPanel
