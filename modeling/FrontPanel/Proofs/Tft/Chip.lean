import FrontPanel.Tft.Area

/-!
# The receiving end of the serial bus

What the controller of the display makes of the traffic. It listens while it is selected, and takes bytes as
commands or as data by the level of the data line. It keeps the window that it was told, and the pixels
after a memory write fill that window row by row. All other commands leave the picture alone.
-/

namespace FrontPanel.Tft

set_option autoImplicit false

structure Chip where
  hasSelect : Bool
  selectHigh : Bool := true
  dataHigh : Bool := true
  command : UInt8 := 0
  /-- Data bytes since the command that did not come to anything yet. -/
  arguments : List UInt8 := []
  left : Nat := 0
  right : Nat := 0
  top : Nat := 0
  bottom : Nat := 0
  column : Nat := 0
  row : Nat := 0
  memory : Nat → Nat → Color

namespace Chip

def listens (c : Chip) : Bool := !c.hasSelect || !c.selectHigh

def word (high low : UInt8) : Nat := high.toNat * 256 + low.toNat

/-- Sets the next pixel, and goes on to the right, then to the next row, then to the top again. -/
def plot (color : Color) (c : Chip) : Chip :=
  { c with
    memory := fun x y => if x = c.column ∧ y = c.row then color else c.memory x y
    column := if c.column = c.right then c.left else c.column + 1
    row :=
      if c.column = c.right then if c.row = c.bottom then c.top else c.row + 1 else c.row }

def takeCommand (byte : UInt8) (c : Chip) : Chip :=
  let c := { c with command := byte, arguments := [] }
  if byte = Command.memoryWrite then { c with column := c.left, row := c.top } else c

/-- Two bytes make a pixel, four make the ends of a window. -/
def takeData (c : Chip) (byte : UInt8) : Chip :=
  match c.arguments ++ [byte] with
  | [high, low] =>
    if c.command = Command.memoryWrite then
      { c.plot (UInt16.ofNat (word high low)) with arguments := [] }
    else { c with arguments := [high, low] }
  | [a, b, p, q] =>
    if c.command = Command.columns then
      { c with left := word a b, right := word p q, arguments := [] }
    else if c.command = Command.rows then
      { c with top := word a b, bottom := word p q, arguments := [] }
    else { c with arguments := [a, b, p, q] }
  | bytes => { c with arguments := bytes }

def takeBytes (bytes : List UInt8) (c : Chip) : Chip :=
  if c.dataHigh then bytes.foldl takeData c else bytes.foldl (fun c b => c.takeCommand b) c

/-- Reads, waits and failed transfers leave the picture alone, and so does the reset line. -/
def hear (e : SerialEvent) (c : Chip) : Chip :=
  match e with
  | .level .select high => { c with selectHigh := high }
  | .level .data high => { c with dataHigh := high }
  | .write bytes => if c.listens then c.takeBytes bytes else c
  | _ => c

end Chip

/-- The chip behind the bus, from a picture at power-on and all traffic since. -/
def chip (memory : Nat → Nat → Color) (t : Tft) : Chip :=
  t.bus.history.foldl (fun c e => c.hear e) { hasSelect := t.hasSelect, memory }

def picture (memory : Nat → Nat → Color) (t : Tft) (x y : Nat) : Color :=
  (t.chip memory).memory (x + t.offsetX) (y + t.offsetY)

namespace Chip

theorem word_twoBytes {n : Nat} (h : n < 65536) :
    word (UInt8.ofNat (n / 256)) (UInt8.ofNat n) = n := by
  simp only [word, UInt8.toNat_ofNat']
  omega

theorem takeCommand_hasSelect (byte : UInt8) (c : Chip) :
    (c.takeCommand byte).hasSelect = c.hasSelect := by
  unfold takeCommand
  split <;> rfl

theorem takeData_hasSelect (c : Chip) (byte : UInt8) :
    (c.takeData byte).hasSelect = c.hasSelect := by
  unfold takeData
  split
  · split <;> rfl
  · split
    · rfl
    · split <;> rfl
  · rfl

theorem foldl_hasSelect {f : Chip → UInt8 → Chip} (hf : ∀ c b, (f c b).hasSelect = c.hasSelect)
    (bytes : List UInt8) (c : Chip) : (bytes.foldl f c).hasSelect = c.hasSelect := by
  induction bytes generalizing c with
  | nil => rfl
  | cons b bs ih => exact (ih (f c b)).trans (hf c b)

theorem hear_hasSelect (e : SerialEvent) (c : Chip) : (c.hear e).hasSelect = c.hasSelect := by
  unfold hear
  split
  · rfl
  · rfl
  · split
    · unfold takeBytes
      split
      · exact foldl_hasSelect takeData_hasSelect _ c
      · exact foldl_hasSelect (fun c b => takeCommand_hasSelect b c) _ c
    · rfl
  · rfl

def plotAll (colors : List Color) (c : Chip) : Chip := colors.foldl (fun c k => c.plot k) c

@[simp] theorem plotAll_nil (c : Chip) : c.plotAll [] = c := rfl

theorem plotAll_append (ks ls : List Color) (c : Chip) :
    c.plotAll (ks ++ ls) = (c.plotAll ks).plotAll ls := List.foldl_append

theorem plotAll_cons (k : Color) (ks : List Color) (c : Chip) :
    c.plotAll (k :: ks) = (c.plot k).plotAll ks := rfl

structure Open (c : Chip) : Prop where
  listens : c.listens = true
  dataHigh : c.dataHigh = true
  command : c.command = Command.memoryWrite
  arguments : c.arguments = []

theorem Open.plot {c : Chip} (h : c.Open) (color : Color) : (c.plot color).Open :=
  ⟨h.listens, h.dataHigh, h.command, h.arguments⟩

theorem Open.plotAll {c : Chip} (h : c.Open) (colors : List Color) : (c.plotAll colors).Open := by
  induction colors generalizing c with
  | nil => exact h
  | cons k ks ih => exact ih (h.plot k)

theorem takeData_first {c : Chip} (h : c.arguments = []) (byte : UInt8) :
    c.takeData byte = { c with arguments := [byte] } := by
  simp only [takeData, h, List.nil_append]

theorem takeData_second {c : Chip} {high : UInt8} (hc : c.command = Command.memoryWrite)
    (ha : c.arguments = [high]) (low : UInt8) :
    c.takeData low = { c.plot (UInt16.ofNat (word high low)) with arguments := [] } := by
  simp only [takeData, ha, List.singleton_append, hc, if_true]

theorem takeData_twoBytes {c : Chip} (h : c.Open) (color : Color) :
    (twoBytes color.toNat).foldl takeData c = c.plot color := by
  have hw : UInt16.ofNat (word (UInt8.ofNat (color.toNat / 256)) (UInt8.ofNat color.toNat)) =
      color := by
    rw [word_twoBytes color.toNat_lt]
    exact UInt16.ofNat_toNat
  simp only [twoBytes, List.foldl_cons, List.foldl_nil]
  rw [takeData_first h.arguments]
  refine (takeData_second (c := { c with arguments := [_] }) h.command rfl _).trans ?_
  rw [hw]
  change { c.plot color with arguments := [] } = c.plot color
  rw [← h.arguments]
  rfl

theorem hear_pixels {c : Chip} (h : c.Open) (colors : List Color) :
    c.hear (.write (colors.flatMap fun k => twoBytes k.toNat)) = c.plotAll colors := by
  simp only [hear, h.listens, if_true, takeBytes, h.dataHigh]
  induction colors generalizing c with
  | nil => rfl
  | cons k ks ih =>
    rw [List.flatMap_cons, List.foldl_append, takeData_twoBytes h, ih (h.plot k), plotAll_cons]

def withRow (memory : Nat → Nat → Color) (left count row : Nat) (g : Nat → Color) (x y : Nat) :
    Color :=
  if left ≤ x ∧ x < left + count ∧ y = row then g (x - left) else memory x y

def withRect (memory : Nat → Nat → Color) (left top width height : Nat) (f : Nat → Nat → Color)
    (x y : Nat) : Color :=
  if (left ≤ x ∧ x < left + width) ∧ top ≤ y ∧ y < top + height then f (x - left) (y - top)
  else memory x y

def rowMajor (width height : Nat) (f : Nat → Nat → Color) : List Color :=
  (List.range height).flatMap fun j => (List.range width).map fun i => f i j

theorem rowMajor_succ (width height : Nat) (f : Nat → Nat → Color) :
    rowMajor width (height + 1) f =
      rowMajor width height f ++ (List.range width).map fun i => f i height := by
  rw [rowMajor, List.range_succ, List.flatMap_append, List.flatMap_singleton, rowMajor]

theorem rowMajor_const (width height : Nat) (color : Color) :
    rowMajor width height (fun _ _ => color) = List.replicate (width * height) color := by
  induction height with
  | zero => rfl
  | succ n ih =>
    rw [rowMajor_succ, ih, List.map_const', List.length_range, List.replicate_append_replicate,
      Nat.mul_succ]

theorem plotAll_row_start {c : Chip} (hc : c.column = c.left) (g : Nat → Color) {n : Nat}
    (hn : c.left + n ≤ c.right) :
    c.plotAll ((List.range n).map g) =
      { c with column := c.left + n, memory := withRow c.memory c.left n c.row g } := by
  induction n with
  | zero =>
    have hm : withRow c.memory c.left 0 c.row g = c.memory := by
      funext x y
      exact if_neg (by omega)
    rw [hm, Nat.add_zero]
    exact congrArg (fun k => { c with column := k }) hc
  | succ n ih =>
    rw [List.range_succ, List.map_append, plotAll_append, ih (by omega), List.map_singleton,
      plotAll_cons, plotAll_nil]
    have hne : c.left + n ≠ c.right := by omega
    simp only [plot, if_neg hne, Nat.add_assoc]
    congr 1
    funext x y
    by_cases hxy : x = c.left + n ∧ y = c.row
    · obtain ⟨rfl, rfl⟩ := hxy
      simp [withRow]
    · rw [if_neg hxy]
      simp only [withRow]
      congr 1
      exact propext (by omega)

theorem plotAll_row {c : Chip} (hc : c.column = c.left) (hw : c.left ≤ c.right) (g : Nat → Color) :
    c.plotAll ((List.range (c.right - c.left + 1)).map g) =
      { c with
        row := if c.row = c.bottom then c.top else c.row + 1
        memory := withRow c.memory c.left (c.right - c.left + 1) c.row g } := by
  rw [List.range_succ, List.map_append, plotAll_append, plotAll_row_start hc g (by omega),
    List.map_singleton, plotAll_cons, plotAll_nil]
  have hr : c.left + (c.right - c.left) = c.right := by omega
  simp only [plot, hr, if_true]
  rw [← hc]
  congr 1
  funext x y
  by_cases hxy : x = c.right ∧ y = c.row
  · obtain ⟨rfl, rfl⟩ := hxy
    rw [if_pos ⟨rfl, rfl⟩, withRow, if_pos (by omega)]
  · rw [if_neg hxy]
    simp only [withRow]
    congr 1
    exact propext (by omega)

theorem plotAll_rows_start {c : Chip} (hc : c.column = c.left) (hr : c.row = c.top)
    (hw : c.left ≤ c.right) (f : Nat → Nat → Color) {n : Nat} (hn : c.top + n ≤ c.bottom) :
    c.plotAll (rowMajor (c.right - c.left + 1) n f) =
      { c with
        row := c.top + n
        memory := withRect c.memory c.left c.top (c.right - c.left + 1) n f } := by
  induction n with
  | zero =>
    have hm : withRect c.memory c.left c.top (c.right - c.left + 1) 0 f = c.memory := by
      funext x y
      exact if_neg (by omega)
    rw [hm, Nat.add_zero]
    exact congrArg (fun k => { c with row := k }) hr
  | succ n ih =>
    rw [rowMajor_succ, plotAll_append, ih (by omega)]
    refine (plotAll_row (c := { c with row := c.top + n, memory := _ }) hc hw _).trans ?_
    have hne : c.top + n ≠ c.bottom := by omega
    simp only [if_neg hne, Nat.add_assoc]
    congr 1
    funext x y
    simp only [withRow, withRect]
    grind

theorem memory_plotAll_window {c : Chip} (hc : c.column = c.left) (hr : c.row = c.top)
    (hw : c.left ≤ c.right) (hh : c.top ≤ c.bottom) (f : Nat → Nat → Color) :
    (c.plotAll (rowMajor (c.right - c.left + 1) (c.bottom - c.top + 1) f)).memory =
      withRect c.memory c.left c.top (c.right - c.left + 1) (c.bottom - c.top + 1) f := by
  rw [rowMajor_succ, plotAll_append, plotAll_rows_start hc hr hw f (by omega)]
  refine (congrArg Chip.memory
    (plotAll_row (c := { c with row := c.top + (c.bottom - c.top), memory := _ }) hc hw _)).trans ?_
  funext x y
  simp only [withRow, withRect]
  grind

end Chip

end FrontPanel.Tft
