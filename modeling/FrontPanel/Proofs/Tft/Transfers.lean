import FrontPanel.Proofs.Action
import FrontPanel.Tft.Display

/-!
# Counting transfers

How many transfers an operation of the display makes. It fails at the first of them that fails, and answers
if all of them succeed; so a fault is met in the part of the operation that its number falls into.
-/

namespace FrontPanel

set_option autoImplicit false

namespace Faults

/-- None of the next `count` transfers fails. -/
def Clean (f : Faults) (count : Nat) : Prop := ∀ i, i < count → f.fails (f.tried + i) = false

/-- After `n` transfers that succeed there is one that fails. -/
structure FirstAt (f : Faults) (n : Nat) : Prop where
  clean : f.Clean n
  fails : f.fails (f.tried + n) = true

def advance (f : Faults) (count : Nat) : Faults := { f with tried := f.tried + count }

theorem advance_advance (f : Faults) (m n : Nat) :
    (f.advance m).advance n = f.advance (m + n) := by
  simp only [advance, Nat.add_assoc]

theorem Clean.mono {f : Faults} {m n : Nat} (h : f.Clean n) (hmn : m ≤ n) : f.Clean m :=
  fun i hi => h i (Nat.lt_of_lt_of_le hi hmn)

theorem Clean.advance {f : Faults} {m n : Nat} (h : f.Clean (m + n)) : (f.advance m).Clean n := by
  intro i hi
  have hlater := h (m + i) (Nat.add_lt_add_left hi m)
  rwa [← Nat.add_assoc] at hlater

theorem FirstAt.advance {f : Faults} {m n : Nat} (h : f.FirstAt (m + n)) :
    (f.advance m).FirstAt n := by
  refine ⟨h.clean.advance, ?_⟩
  have hfails := h.fails
  rwa [← Nat.add_assoc] at hfails

theorem clean_or_firstAt (f : Faults) (count : Nat) :
    f.Clean count ∨ ∃ n, n < count ∧ f.FirstAt n := by
  induction count with
  | zero => exact .inl fun i hi => absurd hi (Nat.not_lt_zero i)
  | succ count ih =>
    rcases ih with hclean | ⟨n, hn, hfirst⟩
    · cases hnext : f.fails (f.tried + count) with
      | true => exact .inr ⟨count, Nat.lt_succ_self count, hclean, hnext⟩
      | false =>
        refine .inl fun i hi => ?_
        rcases Nat.lt_succ_iff_lt_or_eq.mp hi with hi | rfl
        · exact hclean i hi
        · exact hnext
    · exact .inr ⟨n, Nat.lt_succ_of_lt hn, hfirst⟩

end Faults

namespace Tft

open FrontPanel.Action

/-- Started in `t` the action makes `count` transfers if all of them succeed, and answers then. It fails at
the first of them that fails. -/
structure Transfers {α : Type} (t : Tft) (x : Action TftError Tft α) (count : Nat) : Prop where
  answers : t.bus.faults.Clean count →
    ∃ a t', x t = .ok a t' ∧ t'.bus.faults = t.bus.faults.advance count
  fails : ∀ n, n < count → t.bus.faults.FirstAt n → ∃ t', x t = .error .transfer t'

namespace Transfers

variable {α β : Type} {t : Tft} {k m : Nat}

theorem pure (a : α) : Transfers t (Pure.pure a) 0 :=
  ⟨fun _ => ⟨a, t, rfl, rfl⟩, fun n hn => absurd hn (Nat.not_lt_zero n)⟩

theorem modify {f : Tft → Tft} (hf : (f t).bus.faults = t.bus.faults) :
    Transfers t (modify f : Action TftError Tft PUnit) 0 :=
  ⟨fun _ => ⟨⟨⟩, f t, rfl, hf⟩, fun n hn => absurd hn (Nat.not_lt_zero n)⟩

theorem bind {x : Action TftError Tft α} {f : α → Action TftError Tft β} (hx : Transfers t x k)
    (hf : ∀ a t', x t = .ok a t' → Transfers t' (f a) m) : Transfers t (x >>= f) (k + m) := by
  constructor
  · intro hclean
    obtain ⟨a, t₁, hrun, hfaults⟩ := hx.answers (hclean.mono (Nat.le_add_right k m))
    have hrest : t₁.bus.faults.Clean m := hfaults ▸ hclean.advance
    obtain ⟨b, t₂, hrun', hfaults'⟩ := (hf a t₁ hrun).answers hrest
    refine ⟨b, t₂, (bind_of_ok hrun).trans hrun', ?_⟩
    rw [hfaults', hfaults, Faults.advance_advance]
  · intro n hn hfirst
    by_cases hk : n < k
    · obtain ⟨t₁, hrun⟩ := hx.fails n hk hfirst
      exact ⟨t₁, bind_of_error hrun⟩
    · -- the first part is through, and the rest meets the fault
      have hsplit : k + (n - k) = n := by omega
      obtain ⟨a, t₁, hrun, hfaults⟩ := hx.answers (hfirst.clean.mono (by omega))
      have hrest : t₁.bus.faults.FirstAt (n - k) := by
        rw [hfaults]
        apply Faults.FirstAt.advance
        rwa [hsplit]
      obtain ⟨t₂, hrun'⟩ := (hf a t₁ hrun).fails (n - k) (by omega) hrest
      exact ⟨t₂, (bind_of_ok hrun).trans hrun'⟩

theorem modify_bind {f : Tft → Tft} {g : PUnit → Action TftError Tft β}
    (hf : (f t).bus.faults = t.bus.faults) (hg : Transfers (f t) (g ⟨⟩) m) :
    Transfers t ((MonadState.modifyGet fun s => (⟨⟩, f s)) >>= g) m := by
  have h := bind (k := 0) (modify hf) (f := g) (m := m) fun _ _ hrun => by cases hrun; exact hg
  rwa [Nat.zero_add] at h

theorem write (bytes : List UInt8) : Transfers t (onBus (SerialBus.write bytes)) 1 := by
  have hrun : onBus (SerialBus.write bytes) t = if t.bus.faults.now
      then .error .transfer { t with
        bus := { t.bus with faults := t.bus.faults.next }.record (.writeFailed bytes) }
      else .ok () { t with
        bus := { t.bus with faults := t.bus.faults.next }.record (.write bytes) } := by
    unfold onBus within failingAs SerialBus.write
    cases t.bus.faults.now <;> rfl
  constructor
  · intro hclean
    have hnow : t.bus.faults.now = false := hclean 0 Nat.one_pos
    rw [hrun, hnow]
    exact ⟨(), _, rfl, rfl⟩
  · intro n hn hfirst
    have hzero : n = 0 := by omega
    subst hzero
    have hnow : t.bus.faults.now = true := hfirst.fails
    rw [hrun, hnow]
    exact ⟨_, rfl⟩

theorem get_bind {f : Tft → Action TftError Tft α} (h : Transfers t (f t) k) :
    Transfers t (get >>= f) k :=
  ⟨h.answers, h.fails⟩

theorem closing {x : Action TftError Tft α} {close : Tft → Tft}
    (hclose : ∀ t, (close t).bus.faults = t.bus.faults) (hx : Transfers t x k) :
    Transfers t (x.closing close) k := by
  constructor
  · intro hclean
    obtain ⟨a, t', hrun, hfaults⟩ := hx.answers hclean
    refine ⟨a, close t', ?_, (hclose t').trans hfaults⟩
    simp only [Action.closing, hrun]
  · intro n hn hfirst
    obtain ⟨t', hrun⟩ := hx.fails n hn hfirst
    exact ⟨close t', by simp only [Action.closing, hrun]⟩

theorem ite {c : Prop} [Decidable c] {x y : Action TftError Tft α} (hx : c → Transfers t x k)
    (hy : ¬ c → Transfers t y m) :
    Transfers t (if c then x else y) (if c then k else m) := by
  split
  · exact hx ‹_›
  · exact hy ‹_›

end Transfers

theorem setLine_faults (line : Line) (high : Bool) (t : Tft) :
    (t.setLine line high).bus.faults = t.bus.faults := by
  unfold setLine
  split <;> rfl

theorem hardReset_faults (t : Tft) : t.hardReset.bus.faults = t.bus.faults := by
  unfold hardReset
  split
  · rw [setLine_faults]
    exact setLine_faults .reset false t
  · rfl

/-- One transfer for the command byte, and one for the arguments if there are any. -/
def commandTransfers (arguments : List UInt8) : Nat := 1 + if arguments ≠ [] then 1 else 0

theorem send_transfers (t : Tft) (c : UInt8) (arguments : List UInt8) :
    Transfers t (send c arguments) (commandTransfers arguments) := by
  unfold send
  apply Transfers.modify_bind (setLine_faults _ _ _)
  apply Transfers.bind (Transfers.closing (setLine_faults _ _) (Transfers.write _))
  intro _ t' _
  exact Transfers.ite (fun _ => Transfers.write _) fun _ => Transfers.pure _

theorem transaction_transfers {α : Type} {t : Tft} {x : Action TftError Tft α} {k : Nat}
    (hx : ∀ t', Transfers t' x k) : Transfers t (transaction x) k := by
  have hopen := setLine_faults .select false t
  have h := Transfers.closing (setLine_faults .select true) (hx (t.setLine .select false))
  constructor
  · intro hclean
    rw [← hopen] at hclean ⊢
    exact h.answers hclean
  · intro n hn hfirst
    rw [← hopen] at hfirst
    exact h.fails n hn hfirst

theorem command_transfers (t : Tft) (c : UInt8) (arguments : List UInt8) :
    Transfers t (command c arguments) (commandTransfers arguments) :=
  transaction_transfers fun t' => send_transfers t' c arguments

def ScriptStep.transfers (s : ScriptStep) : Nat := commandTransfers s.arguments

def scriptTransfers : List ScriptStep → Nat
  | [] => 0
  | s :: rest => s.transfers + scriptTransfers rest

theorem runStep_transfers (t : Tft) (s : ScriptStep) : Transfers t (runStep s) s.transfers := by
  unfold runStep
  apply Transfers.bind (m := 0) (command_transfers t s.command s.arguments)
  intro _ t' _
  cases s.milliseconds with
  | none => exact Transfers.pure _
  | some n => exact Transfers.modify rfl

theorem runTable_transfers (t : Tft) (table : List UInt8) :
    Transfers t (runTable table) (scriptTransfers (ScriptStep.ofTable table)) := by
  unfold runTable
  generalize ScriptStep.ofTable table = steps
  induction steps generalizing t with
  | nil => exact Transfers.pure _
  | cons s rest ih =>
    rw [List.forM_eq_forM, List.forM_cons]
    exact Transfers.bind (runStep_transfers t s) fun _ t' _ => ih t'

/-- The transfers of the start table. -/
def tableTransfers : Nat := scriptTransfers (ScriptStep.ofTable startTable)

example : tableTransfers = 13 := by decide

def windowTransfers : Nat := 5

theorem sendWindow_transfers (t : Tft) (x y width height : Nat) :
    Transfers t (sendWindow x y width height) windowTransfers := by
  unfold sendWindow
  apply Transfers.get_bind
  apply Transfers.bind (k := 2) (m := 3) (send_transfers t _ _)
  intro _ t₁ _
  apply Transfers.bind (k := 2) (m := 1) (send_transfers t₁ _ _)
  intro _ t₂ _
  exact send_transfers t₂ _ _

theorem sendRepeated_transfers (t : Tft) (bytes : List UInt8) (n : Nat) :
    Transfers t (sendRepeated bytes n) n := by
  induction n generalizing t with
  | zero => exact Transfers.pure _
  | succ n ih =>
    have h := Transfers.bind (f := fun _ => sendRepeated bytes n) (Transfers.write (t := t) bytes)
      fun _ t' _ => ih t'
    rwa [Nat.add_comm] at h

/-- The pixels go out in chunks, and the last chunk may be shorter. -/
def pixelTransfers (count : Nat) : Nat := (count + (chunkPixels - 1)) / chunkPixels

theorem sendPixels_transfers (t : Tft) (color : Color) (count : Nat) :
    Transfers t (sendPixels color count) (pixelTransfers count) := by
  have hcount : pixelTransfers count =
      count / chunkPixels + if count % chunkPixels ≠ 0 then 1 else 0 := by
    unfold pixelTransfers chunkPixels
    split <;> omega
  rw [hcount]
  unfold sendPixels
  apply Transfers.bind (sendRepeated_transfers t _ _)
  intro _ t' _
  exact Transfers.ite (fun _ => Transfers.write _) fun _ => Transfers.pure _

/-- The transfers that fill what of a rectangle is on the screen. -/
def fillTransfers (t : Tft) (x y width height : Nat) : Nat :=
  if t.width ≤ x ∨ t.height ≤ y ∨ width = 0 ∨ height = 0 then 0
  else windowTransfers + pixelTransfers (min width (t.width - x) * min height (t.height - y))

theorem fillRect_transfers {t : Tft} (ht : t.initialized = true) (x y width height : Nat)
    (color : Color) :
    Transfers t (fillRect x y width height color) (t.fillTransfers x y width height) := by
  unfold fillRect
  apply Transfers.get_bind
  rw [if_neg (by simp [ht])]
  apply Transfers.ite (fun _ => Transfers.pure _)
  intro _
  apply transaction_transfers
  intro t₁
  exact Transfers.bind (sendWindow_transfers t₁ _ _ _ _) fun _ t₂ _ => sendPixels_transfers t₂ _ _

/-- The transfers that clear a screen of so many pixels; an empty one is not touched. -/
def clearTransfers (pixels : Nat) : Nat :=
  if pixels = 0 then 0 else windowTransfers + pixelTransfers pixels

theorem clear_transfers {t : Tft} (ht : t.initialized = true) :
    Transfers t clear (clearTransfers (t.width * t.height)) := by
  have hempty : (t.width ≤ 0 ∨ t.height ≤ 0 ∨ t.width = 0 ∨ t.height = 0) ↔
      t.width * t.height = 0 := by
    rw [Nat.mul_eq_zero]
    omega
  have hfill : t.fillTransfers 0 0 t.width t.height = clearTransfers (t.width * t.height) := by
    simp only [fillTransfers, clearTransfers, hempty, Nat.sub_zero, Nat.min_self]
  unfold clear
  apply Transfers.get_bind
  rw [← hfill]
  exact Transfers.bind (m := 0) (fillRect_transfers ht 0 0 _ _ _) fun _ t' _ => Transfers.modify rfl

end Tft

end FrontPanel
