import FrontPanel.Proofs.Action
import FrontPanel.Proofs.Display.Layer
import FrontPanel.Proofs.Tft.Chip

/-!
# Traffic without faults

What the transactions of the display send, event by event, as long as no transfer fails. Painting goes in
blocks: a transaction for each, which programs a window in the memory of the chip and fills it pixel by
pixel. `Sends` is the judgement for the sending end; the replay of a block is its meaning at the other.
-/

namespace FrontPanel

set_option autoImplicit false

def SerialBus.Faultless (b : SerialBus) : Prop :=
  ∀ i, b.faults.tried ≤ i → b.faults.fails i = false

namespace Tft

open FrontPanel.Action

def selecting (wired high : Bool) : List SerialEvent :=
  if wired then [.level .select high] else []

def commandEvents (command : UInt8) (arguments : List UInt8) : List SerialEvent :=
  [.level .data false, .write [command], .level .data true] ++
    if arguments ≠ [] then [.write arguments] else []

/-- A window of memory is programmed by its first and its last column, and its first and its last row. -/
def windowEvents (left right top bottom : Nat) : List SerialEvent :=
  commandEvents Command.columns (twoBytes left ++ twoBytes right) ++
    (commandEvents Command.rows (twoBytes top ++ twoBytes bottom) ++
      commandEvents Command.memoryWrite [])

def pixelWrite (colors : List Color) : SerialEvent :=
  .write (colors.flatMap fun color => twoBytes color.toNat)

/-- A rectangle in the memory of the chip, with its pixels as they are sent. -/
structure Block where
  left : Nat
  top : Nat
  width : Nat
  height : Nat
  chunks : List (List Color)

def Block.traffic (wired : Bool) (b : Block) : List SerialEvent :=
  selecting wired false ++
    (windowEvents b.left (b.left + (b.width - 1)) b.top (b.top + (b.height - 1)) ++
      b.chunks.map pixelWrite) ++
    selecting wired true

/-- The window is not empty and within sixteen bits, and there is one pixel for each of its places. -/
structure Block.IsExact (b : Block) : Prop where
  width_pos : 0 < b.width
  height_pos : 0 < b.height
  right_le : b.left + b.width ≤ 65536
  bottom_le : b.top + b.height ≤ 65536
  pixels : b.chunks.flatten.length = b.width * b.height

/-- The display is `d` but for its bus, on which no transfer fails and `events` have happened since. -/
structure Sent (d : Tft) (events : List SerialEvent) (t : Tft) : Prop where
  same : t = { d with bus := t.bus }
  faultless : t.bus.Faultless
  history : t.bus.history = d.bus.history ++ events

theorem Sent.refl {d : Tft} (h : d.bus.Faultless) : Sent d [] d :=
  ⟨rfl, h, (List.append_nil _).symm⟩

theorem Sent.record {d t : Tft} {events : List SerialEvent} (h : Sent d events t) (e : SerialEvent) :
    Sent d (events ++ [e]) (t.record e) := by
  refine ⟨congrArg (Tft.record e) h.same, h.faultless, ?_⟩
  rw [← List.append_assoc, ← h.history]
  exact List.reverse_cons

theorem Sent.setLine_data {d t : Tft} {events : List SerialEvent} (h : Sent d events t)
    (high : Bool) : Sent d (events ++ [.level .data high]) (t.setLine .data high) :=
  h.record _

theorem Sent.setLine_select {d t : Tft} {events : List SerialEvent} (h : Sent d events t)
    (high : Bool) : Sent d (events ++ selecting d.hasSelect high) (t.setLine .select high) := by
  have hwired : t.isWired .select = d.hasSelect := by rw [h.same]; rfl
  unfold setLine selecting
  rw [hwired]
  split
  · exact h.record _
  · rw [List.append_nil]
    exact h

def Sends {α : Type} (d : Tft) (x : Action TftError Tft α) (events : List SerialEvent) : Prop :=
  ∀ before, Answers (Sent d before) x fun _ => Sent d (before ++ events)

namespace Sends

variable {α β : Type} {d : Tft} {events more : List SerialEvent}

theorem pure (a : α) : Sends d (Pure.pure a) [] := fun before =>
  Ensures.pure fun _ ht => (List.append_nil before).symm ▸ ht

theorem bind {x : Action TftError Tft α} {f : α → Action TftError Tft β} (hx : Sends d x events)
    (hf : ∀ a, Sends d (f a) more) : Sends d (x >>= f) (events ++ more) := fun before =>
  Ensures.bind (hx before) fun a => List.append_assoc before events more ▸ hf a (before ++ events)

theorem get_bind {f : Tft → Action TftError Tft β}
    (h : ∀ t, t = { d with bus := t.bus } → Sends d (f t) events) : Sends d (get >>= f) events :=
  fun before => Ensures.get_bind fun t ht => (h t ht.same before).mono_pre fun _ hs => hs ▸ ht

theorem write (bytes : List UInt8) : Sends d (onBus (SerialBus.write bytes)) [.write bytes] := by
  intro before t h
  have hnow : t.bus.faults.now = false := h.faultless _ (Nat.le_refl _)
  simp only [onBus, within, failingAs, SerialBus.write, hnow]
  refine ⟨?_, fun i hi => h.faultless i (Nat.le_of_succ_le hi), (h.record (.write bytes)).history⟩
  rw [h.same]

theorem closing_data {x : Action TftError Tft α} (hx : Sends d x events) (high : Bool) :
    Sends d (x.closing (setLine .data high)) (events ++ [.level .data high]) := fun before =>
  Ensures.closing ((hx before).mono_post fun _ _ ht =>
    List.append_assoc before events _ ▸ ht.setLine_data high)

theorem transaction {x : Action TftError Tft α} (hx : Sends d x events) :
    Sends d (Tft.transaction x)
      (selecting d.hasSelect false ++ events ++ selecting d.hasSelect true) := by
  intro before t ht
  have hclosing : Answers (Sent d (before ++ selecting d.hasSelect false))
      (x.closing (setLine .select true))
      fun _ => Sent d (before ++ selecting d.hasSelect false ++ events ++ selecting d.hasSelect true) :=
    Ensures.closing ((hx _).mono_post fun _ _ ht' => ht'.setLine_select true)
  have hrun := hclosing _ (ht.setLine_select false)
  rw [List.append_assoc, List.append_assoc] at hrun
  rw [List.append_assoc]
  exact hrun

end Sends

section Sends

variable {d : Tft}

theorem send_sends (command : UInt8) (arguments : List UInt8) :
    Sends d (send command arguments) (commandEvents command arguments) := by
  unfold send
  have hlow : Sends d (modify (setLine .data false)) [.level .data false] :=
    fun before => Ensures.modified fun t ht => ht.setLine_data false
  refine hlow.bind fun _ => ?_
  refine Sends.bind ((Sends.write [command]).closing_data true) fun _ => ?_
  split
  · exact Sends.write arguments
  · exact Sends.pure _

theorem sendWindow_sends (x y width height : Nat) :
    Sends d (sendWindow x y width height)
      (windowEvents (Number.plus x d.offsetX) (Number.plus (Number.plus x d.offsetX) (width - 1))
        (Number.plus y d.offsetY) (Number.plus (Number.plus y d.offsetY) (height - 1))) := by
  unfold sendWindow
  refine Sends.get_bind fun t ht => ?_
  have hx : t.offsetX = d.offsetX := by rw [ht]
  have hy : t.offsetY = d.offsetY := by rw [ht]
  rw [hx, hy]
  refine Sends.bind (send_sends _ _) fun _ => ?_
  exact Sends.bind (send_sends _ _) fun _ => send_sends _ _

/-- The pixels of one color in chunks, of which the last may be shorter. -/
def chunked (color : Color) (count : Nat) : List (List Color) :=
  List.replicate (count / chunkPixels) (List.replicate chunkPixels color) ++
    if count % chunkPixels ≠ 0 then [List.replicate (count % chunkPixels) color] else []

theorem flatten_chunked (color : Color) (count : Nat) :
    (chunked color count).flatten = List.replicate count color := by
  have hcount := Nat.div_add_mod count chunkPixels
  have hrest : (if count % chunkPixels ≠ 0 then [List.replicate (count % chunkPixels) color]
      else []).flatten = List.replicate (count % chunkPixels) color := by
    split
    · exact List.flatten_singleton
    · rename_i hnone
      rw [Decidable.of_not_not hnone]
      rfl
  rw [chunked, List.flatten_append, List.flatten_replicate_replicate, hrest,
    List.replicate_append_replicate, Nat.mul_comm, hcount]

theorem pixelWrite_replicate (color : Color) (count : Nat) :
    pixelWrite (List.replicate count color) = .write (pixelBytes color count) := by
  rw [pixelWrite, pixelBytes, List.flatMap_def, List.map_replicate]

theorem sendRepeated_sends (bytes : List UInt8) (n : Nat) :
    Sends d (sendRepeated bytes n) (List.replicate n (.write bytes)) := by
  induction n with
  | zero => exact Sends.pure ()
  | succ n ih => exact Sends.bind (Sends.write bytes) fun _ => ih

theorem sendPixels_sends (color : Color) (count : Nat) :
    Sends d (sendPixels color count) ((chunked color count).map pixelWrite) := by
  unfold sendPixels chunked
  rw [List.map_append, List.map_replicate, pixelWrite_replicate]
  refine Sends.bind (sendRepeated_sends _ _) fun _ => ?_
  split
  · rw [List.map_singleton, pixelWrite_replicate]
    exact Sends.write _
  · exact Sends.pure _

end Sends

namespace Chip

def hearAll (events : List SerialEvent) (c : Chip) : Chip := events.foldl (fun c e => c.hear e) c

theorem hearAll_append (events more : List SerialEvent) (c : Chip) :
    c.hearAll (events ++ more) = (c.hearAll events).hearAll more := List.foldl_append

theorem memory_hearAll_selecting (wired high : Bool) (c : Chip) :
    (c.hearAll (selecting wired high)).memory = c.memory := by
  cases wired <;> rfl

theorem listens_hearAll_selecting (c : Chip) :
    (c.hearAll (selecting c.hasSelect false)).listens = true := by
  unfold selecting
  cases h : c.hasSelect with
  | true => exact Bool.or_true _
  | false =>
    change (!c.hasSelect || _) = true
    rw [h]
    rfl

def told (command : UInt8) (arguments : List UInt8) (c : Chip) : Chip :=
  arguments.foldl takeData { c.takeCommand command with dataHigh := true }

theorem hearAll_commandEvents {c : Chip} (hc : c.listens = true) (command : UInt8)
    (arguments : List UInt8) : c.hearAll (commandEvents command arguments) = c.told command arguments := by
  let commanded : Chip := { c.takeCommand command with dataHigh := true }
  have hcommand : c.hearAll [.level .data false, .write [command], .level .data true] = commanded := by
    have hhear : Chip.hear (.write [command]) { c with dataHigh := false } =
        Chip.takeCommand command { c with dataHigh := false } := if_pos hc
    change { Chip.hear (.write [command]) { c with dataHigh := false } with dataHigh := true } = _
    rw [hhear]
    unfold commanded Chip.takeCommand
    split <;> rfl
  have hlistens : commanded.listens = true := by
    unfold commanded Chip.takeCommand
    split <;> exact hc
  unfold commandEvents
  rw [hearAll_append, hcommand]
  split
  · exact if_pos hlistens
  · rename_i hnone
    rw [Decidable.of_not_not hnone]
    rfl

/-- The chip about to take the pixels of a window. -/
def aimed (left right top bottom : Nat) (c : Chip) : Chip :=
  { c with
    dataHigh := true, command := Command.memoryWrite, arguments := []
    left, right, top, bottom, column := left, row := top }

theorem told_columns {a b : Nat} (ha : a < 65536) (hb : b < 65536) (c : Chip) :
    c.told Command.columns (twoBytes a ++ twoBytes b) =
      { c with
        dataHigh := true, command := Command.columns, arguments := [], left := a, right := b } := by
  simp [told, twoBytes, takeCommand, takeData, Command.columns, Command.memoryWrite,
    word_twoBytes ha, word_twoBytes hb]

theorem told_rows {a b : Nat} (ha : a < 65536) (hb : b < 65536) (c : Chip) :
    c.told Command.rows (twoBytes a ++ twoBytes b) =
      { c with
        dataHigh := true, command := Command.rows, arguments := [], top := a, bottom := b } := by
  simp [told, twoBytes, takeCommand, takeData, Command.columns, Command.rows, Command.memoryWrite,
    word_twoBytes ha, word_twoBytes hb]

theorem told_memoryWrite (c : Chip) :
    c.told Command.memoryWrite [] =
      { c with
        dataHigh := true, command := Command.memoryWrite, arguments := []
        column := c.left, row := c.top } := by
  simp [told, takeCommand]

theorem hearAll_windowEvents {c : Chip} (hc : c.listens = true) {left right top bottom : Nat}
    (hleft : left < 65536) (hright : right < 65536) (htop : top < 65536) (hbottom : bottom < 65536) :
    c.hearAll (windowEvents left right top bottom) = c.aimed left right top bottom := by
  let columned : Chip :=
    { c with dataHigh := true, command := Command.columns, arguments := [], left, right }
  let rowed : Chip := { columned with command := Command.rows, top, bottom }
  have hcolumns : c.hearAll (commandEvents Command.columns (twoBytes left ++ twoBytes right)) =
      columned := (hearAll_commandEvents (c := c) hc _ _).trans (told_columns hleft hright c)
  have hrows : columned.hearAll (commandEvents Command.rows (twoBytes top ++ twoBytes bottom)) =
      rowed := (hearAll_commandEvents (c := columned) hc _ _).trans (told_rows htop hbottom columned)
  have hwrite : rowed.hearAll (commandEvents Command.memoryWrite []) =
      c.aimed left right top bottom :=
    (hearAll_commandEvents (c := rowed) hc _ _).trans (told_memoryWrite rowed)
  rw [windowEvents, hearAll_append, hcolumns, hearAll_append, hrows, hwrite]

theorem hearAll_pixelWrites {c : Chip} (hc : c.Open) (chunks : List (List Color)) :
    c.hearAll (chunks.map pixelWrite) = c.plotAll chunks.flatten := by
  induction chunks generalizing c with
  | nil => rfl
  | cons chunk rest ih =>
    have hfirst : c.hear (pixelWrite chunk) = c.plotAll chunk := hear_pixels hc chunk
    rw [List.map_cons, List.flatten_cons, plotAll_append, ← ih (hc.plotAll chunk), ← hfirst]
    rfl

theorem memory_plotAll_aimed (c : Chip) {left top width height : Nat} (hw : 0 < width)
    (hh : 0 < height) (f : Nat → Nat → Color) :
    ((c.aimed left (left + (width - 1)) top (top + (height - 1))).plotAll
        (rowMajor width height f)).memory =
      withRect c.memory left top width height f := by
  have hfill := memory_plotAll_window
    (c := c.aimed left (left + (width - 1)) top (top + (height - 1))) rfl rfl
    (Nat.le_add_right _ _) (Nat.le_add_right _ _) f
  have hwidth : left + (width - 1) - left + 1 = width := by omega
  have hheight : top + (height - 1) - top + 1 = height := by omega
  change (Chip.plotAll (rowMajor (left + (width - 1) - left + 1) (top + (height - 1) - top + 1) f)
    _).memory = _ at hfill
  rw [hwidth, hheight] at hfill
  refine hfill.trans ?_
  change withRect c.memory left top (left + (width - 1) - left + 1)
    (top + (height - 1) - top + 1) f = _
  rw [hwidth, hheight]

theorem withRect_eq (memory : Screen) (left top width height : Nat) (f : Nat → Nat → Color) :
    withRect memory left top width height f = (Layer.area left top width height f).on memory := by
  funext x y
  unfold withRect Layer.on Layer.area
  split <;> rfl

/-- A block paints its rectangle, pixel by pixel, and nothing else. -/
theorem memory_hearAll_traffic {b : Block} (hb : b.IsExact) {f : Nat → Nat → Color}
    (hf : b.chunks.flatten = rowMajor b.width b.height f) (c : Chip) :
    (c.hearAll (b.traffic c.hasSelect)).memory =
      (Layer.area b.left b.top b.width b.height f).on c.memory := by
  have hlistens := listens_hearAll_selecting c
  have hright := hb.right_le
  have hbottom := hb.bottom_le
  have hwidth := hb.width_pos
  have hheight := hb.height_pos
  have hopen : (aimed b.left (b.left + (b.width - 1)) b.top (b.top + (b.height - 1))
      (c.hearAll (selecting c.hasSelect false))).Open := ⟨hlistens, rfl, rfl, rfl⟩
  unfold Block.traffic
  rw [hearAll_append, memory_hearAll_selecting, hearAll_append, hearAll_append,
    hearAll_windowEvents hlistens (by omega) (by omega) (by omega) (by omega),
    hearAll_pixelWrites hopen, hf, memory_plotAll_aimed _ hwidth hheight,
    memory_hearAll_selecting, withRect_eq]

end Chip

theorem chip_hasSelect (memory : Screen) (t : Tft) : (t.chip memory).hasSelect = t.hasSelect := by
  unfold chip
  generalize t.bus.history = events
  suffices ∀ c : Chip, (events.foldl (fun c e => c.hear e) c).hasSelect = c.hasSelect from this _
  induction events with
  | nil => exact fun _ => rfl
  | cons e es ih => exact fun c => (ih (c.hear e)).trans (Chip.hear_hasSelect e c)

theorem Sent.chip {d t : Tft} {events : List SerialEvent} (h : Sent d events t) (memory : Screen) :
    t.chip memory = (d.chip memory).hearAll events := by
  have hselect : t.hasSelect = d.hasSelect := by rw [h.same]
  unfold Tft.chip
  rw [h.history, hselect, List.foldl_append]
  rfl

end Tft

end FrontPanel
