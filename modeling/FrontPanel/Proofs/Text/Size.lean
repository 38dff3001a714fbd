import Mathlib.Algebra.Ring.Nat
import FrontPanel.Text.Pieces

/-!
# Bytes of a text

Room is measured in bytes, of which a character takes one to four, and a digit one. What fits into a place of
bounded size as a whole fits in any pieces.
-/

namespace FrontPanel.Text

set_option autoImplicit false

theorem utf8ByteSize_ofList_cons (c : Char) (cs : List Char) :
    (String.ofList (c :: cs)).utf8ByteSize = c.utf8Size + (String.ofList cs).utf8ByteSize := by
  rw [String.ofList_cons, String.utf8ByteSize_append, String.utf8ByteSize_singleton]

theorem utf8ByteSize_le_of_prefix {start cs : List Char} (h : start <+: cs) :
    (String.ofList start).utf8ByteSize ≤ (String.ofList cs).utf8ByteSize := by
  obtain ⟨rest, rfl⟩ := h
  rw [String.ofList_append, String.utf8ByteSize_append]
  exact Nat.le_add_right _ _

theorem utf8Size_of_isDigit {c : Char} (h : c.isDigit = true) : c.utf8Size = 1 := by
  have hrange : 48 ≤ c.toNat ∧ c.toNat ≤ 57 := Char.isDigit_iff_toNat.mp h
  have hsmall : c.toNat ≤ 127 := by omega
  exact Char.utf8Size_eq_one_iff.mpr hsmall

theorem utf8ByteSize_ofList_digits {cs : List Char} (h : ∀ c ∈ cs, c.isDigit = true) :
    (String.ofList cs).utf8ByteSize = cs.length := by
  induction cs with
  | nil => rfl
  | cons c rest ih =>
    obtain ⟨hc, hrest⟩ := List.forall_mem_cons.mp h
    rw [utf8ByteSize_ofList_cons, utf8Size_of_isDigit hc, ih hrest, List.length_cons, Nat.add_comm]

/-- A number of up to `k` digits takes up to `k` bytes. -/
theorem utf8ByteSize_toString_le {n k : Nat} (hk : 0 < k) (h : n < 10 ^ k) :
    (toString n).utf8ByteSize ≤ k := by
  have hdigits : ∀ c ∈ Nat.toDigits 10 n, c.isDigit = true :=
    fun _ => Nat.isDigit_of_mem_toDigits (by decide) (by decide)
  rw [Nat.toString_eq_ofList_toDigits, utf8ByteSize_ofList_digits hdigits]
  exact (Nat.length_toDigits_le_iff (by decide) hk).mpr h

theorem utf8ByteSize_join (pieces : List String) :
    (String.join pieces).utf8ByteSize = (pieces.map String.utf8ByteSize).sum := by
  induction pieces with
  | nil => rfl
  | cons piece rest ih =>
    rw [String.join_cons, String.utf8ByteSize_append, ih, List.map_cons, List.sum_cons]

theorem writeWithin_of_fits {room : Nat} {pieces : List String} {written : String}
    (h : (written ++ String.join pieces).utf8ByteSize ≤ room) :
    writeWithin room written pieces = (written ++ String.join pieces, true) := by
  induction pieces generalizing written with
  | nil => rw [writeWithin, String.join_nil, String.append_empty]
  | cons piece rest ih =>
    rw [String.join_cons, ← String.append_assoc] at h ⊢
    have hpiece : (written ++ piece).utf8ByteSize ≤ room := by
      rw [String.utf8ByteSize_append] at h
      omega
    rw [writeWithin, if_pos hpiece, ih h]

end FrontPanel.Text
