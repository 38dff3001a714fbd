import FrontPanel.Proofs.Tft.Traffic
import FrontPanel.Proofs.Tft.Transfers

/-!
# Start scripts, decoded and run

A table of bytes is decoded to steps that stand in it one behind the other, as far as they are complete, and
what was encoded is read back. A script is run step by step: each puts its command on the bus, and the first
transfer that fails ends the run in the middle of its step.
-/

namespace FrontPanel.Tft

set_option autoImplicit false

namespace ScriptStep

/-- As many arguments as can be counted beside the flag. -/
def Fits (s : ScriptStep) : Prop := s.arguments.length < pauseFlag

theorem decode_encode {s : ScriptStep} (hs : s.Fits) (rest : List UInt8) :
    decode (s.encode ++ rest) = some (s, rest) := by
  obtain ⟨command, arguments, pause⟩ := s
  have hlength : arguments.length < 128 := hs
  cases pause with
  | none =>
    have hmod : arguments.length % 256 = arguments.length := by omega
    have hcount : arguments.length % 128 = arguments.length := by omega
    simp [encode, decode, pauseFlag, hmod, hcount, hlength]
  | some p =>
    have hmod : (arguments.length + 128) % 256 = arguments.length + 128 := by omega
    have hcount : (arguments.length + 128) % 128 = arguments.length := by omega
    simp [encode, decode, pauseFlag, hmod, hcount]

theorem encode_of_decode {bytes rest : List UInt8} {s : ScriptStep}
    (h : decode bytes = some (s, rest)) : bytes = s.encode ++ rest ∧ s.Fits := by
  unfold decode at h
  split at h
  · next command count tail =>
    have hbyte : count.toNat < 256 := count.toNat_lt
    dsimp only at h
    by_cases hshort : tail.length < count.toNat % pauseFlag
    · rw [if_pos hshort] at h
      cases h
    · have htake : (tail.take (count.toNat % pauseFlag)).length = count.toNat % pauseFlag := by
        rw [List.length_take]
        omega
      have hfits : (tail.take (count.toNat % pauseFlag)).length < pauseFlag :=
        Nat.lt_of_le_of_lt (Nat.le_of_eq htake) (Nat.mod_lt _ (by decide))
      rw [if_neg hshort] at h
      by_cases hflag : count.toNat < pauseFlag
      · rw [if_pos hflag] at h
        cases h
        have hcount : count.toNat % pauseFlag = count.toNat := Nat.mod_eq_of_lt hflag
        refine ⟨?_, hfits⟩
        rw [encode, htake, hcount, UInt8.ofNat_toNat, List.cons_append, List.cons_append,
          List.take_append_drop]
      · rw [if_neg hflag] at h
        split at h
        · cases h
        · next pause more hdrop =>
          cases h
          have hcount : count.toNat % pauseFlag + pauseFlag = count.toNat := by
            simp only [pauseFlag] at hflag ⊢
            omega
          have htail : tail.take (count.toNat % pauseFlag) ++ pause :: rest = tail := by
            rw [← hdrop, List.take_append_drop]
          refine ⟨?_, hfits⟩
          simp only [encode, htake, hcount, UInt8.ofNat_toNat, List.cons_append, List.append_assoc,
            List.nil_append, htail]
  · cases h

/-- Decoding takes an encoded step off the front, and nothing else. -/
theorem decode_eq_some_iff {bytes rest : List UInt8} {s : ScriptStep} :
    decode bytes = some (s, rest) ↔ bytes = s.encode ++ rest ∧ s.Fits := by
  constructor
  · exact encode_of_decode
  · rintro ⟨rfl, hs⟩
    exact decode_encode hs rest

theorem decode_eq_none_iff {bytes : List UInt8} :
    decode bytes = none ↔ ∀ (s : ScriptStep) (rest : List UInt8), s.Fits → bytes ≠ s.encode ++ rest := by
  rw [Option.eq_none_iff_forall_not_mem]
  constructor
  · intro h s rest hs hbytes
    exact h (s, rest) (decode_eq_some_iff.mpr ⟨hbytes, hs⟩)
  · rintro h ⟨s, rest⟩ hmem
    obtain ⟨hbytes, hs⟩ := decode_eq_some_iff.mp hmem
    exact h s rest hs hbytes

theorem decodeMany_encode {steps : List ScriptStep} (hsteps : ∀ s ∈ steps, s.Fits)
    (rest : List UInt8) : decodeMany steps.length (steps.flatMap encode ++ rest) = steps := by
  induction steps with
  | nil => rfl
  | cons s steps ih =>
    obtain ⟨hs, hsteps⟩ := List.forall_mem_cons.mp hsteps
    rw [List.flatMap_cons, List.append_assoc, List.length_cons, decodeMany, decode_encode hs]
    exact congrArg (List.cons s) (ih hsteps)

theorem length_decodeMany_le (n : Nat) (bytes : List UInt8) : (decodeMany n bytes).length ≤ n := by
  induction n generalizing bytes with
  | zero => exact Nat.le_refl 0
  | succ n ih =>
    rw [decodeMany]
    split
    · exact Nat.succ_le_succ (ih _)
    · exact Nat.zero_le _

/-- The steps stand at the front of the bytes, and no complete one follows unless there are enough. -/
theorem exists_rest_decodeMany (n : Nat) (bytes : List UInt8) :
    ∃ rest, bytes = (decodeMany n bytes).flatMap encode ++ rest ∧ (∀ s ∈ decodeMany n bytes, s.Fits) ∧
      ((decodeMany n bytes).length = n ∨ decode rest = none) := by
  induction n generalizing bytes with
  | zero => exact ⟨bytes, rfl, nofun, .inl rfl⟩
  | succ n ih =>
    rw [decodeMany]
    split
    · next s tail hdecode =>
      obtain ⟨rfl, hs⟩ := encode_of_decode hdecode
      obtain ⟨rest, htail, hfits, hend⟩ := ih tail
      refine ⟨rest, ?_, List.forall_mem_cons.mpr ⟨hs, hfits⟩, hend.imp_left (congrArg Nat.succ)⟩
      rw [List.flatMap_cons, List.append_assoc, ← htail]
    · next hdecode => exact ⟨bytes, rfl, nofun, .inr hdecode⟩

/-- More bytes never take a step back. -/
theorem decodeMany_prefix_append (n : Nat) (bytes more : List UInt8) :
    decodeMany n bytes <+: decodeMany n (bytes ++ more) := by
  induction n generalizing bytes with
  | zero => exact List.prefix_refl []
  | succ n ih =>
    rw [decodeMany, decodeMany]
    split
    · next s tail hdecode =>
      obtain ⟨rfl, hs⟩ := encode_of_decode hdecode
      rw [List.append_assoc, decode_encode hs]
      exact List.cons_prefix_cons.mpr ⟨rfl, ih tail⟩
    · exact List.nil_prefix

theorem ofTable_toTable {steps : List ScriptStep} (hlength : steps.length ≤ 255)
    (hsteps : ∀ s ∈ steps, s.Fits) (trailing : List UInt8) :
    ofTable (toTable steps ++ trailing) = steps := by
  have hcount : (UInt8.ofNat steps.length).toNat = steps.length :=
    Nat.mod_eq_of_lt (Nat.lt_succ_of_le hlength)
  rw [toTable, List.cons_append, ofTable, hcount]
  exact decodeMany_encode hsteps trailing

theorem length_ofTable_le (table : List UInt8) :
    (ofTable table).length ≤ (table.headD 0).toNat := by
  cases table with
  | nil => exact Nat.le_refl 0
  | cons count bytes => exact length_decodeMany_le _ bytes

/-- Behind its first byte a table holds its steps, and a complete one follows only if there are enough. -/
theorem exists_rest_ofTable (table : List UInt8) :
    ∃ rest, table = table.take 1 ++ (ofTable table).flatMap encode ++ rest ∧
      (∀ s ∈ ofTable table, s.Fits) ∧
      ((ofTable table).length = (table.headD 0).toNat ∨ decode rest = none) := by
  cases table with
  | nil => exact ⟨[], rfl, nofun, .inl rfl⟩
  | cons count bytes =>
    obtain ⟨rest, hbytes, hfits, hend⟩ := exists_rest_decodeMany count.toNat bytes
    exact ⟨rest, congrArg (List.cons count) hbytes, hfits, hend⟩

theorem ofTable_take_prefix (table : List UInt8) (n : Nat) :
    ofTable (table.take n) <+: ofTable table := by
  cases table with
  | nil => simp
  | cons count bytes =>
    cases n with
    | zero => exact List.nil_prefix
    | succ n =>
      have h := decodeMany_prefix_append count.toNat (bytes.take n) (bytes.drop n)
      rwa [List.take_append_drop] at h

/-- The bytes behind the first `n`; refused if there are fewer. -/
def behind? (n : Nat) (bytes : List UInt8) : Option (List UInt8) :=
  if n ≤ bytes.length then some (bytes.drop n) else none

/-- The step at the front, if there is a complete one. Refused if bytes behind the end are taken. -/
def decode? : List UInt8 → Option (Option (ScriptStep × List UInt8))
  | command :: count :: rest => do
    let n := count.toNat % pauseFlag
    if rest.length < n then return none
    let behind ← behind? n rest
    if count.toNat < pauseFlag then return some (⟨command, rest.take n, none⟩, behind)
    match behind with
    | [] => return none
    | pause :: tail => return some (⟨command, rest.take n, some pause⟩, tail)
  | _ => some none

def decodeMany? : Nat → List UInt8 → Option (List ScriptStep)
  | 0, _ => some []
  | n + 1, table => do
    match ← decode? table with
    | some (step, rest) => return step :: (← decodeMany? n rest)
    | none => return []

def ofTable? : List UInt8 → Option (List ScriptStep)
  | [] => some []
  | count :: rest => decodeMany? count.toNat rest

theorem decode?_eq (bytes : List UInt8) : decode? bytes = some (decode bytes) := by
  match bytes with
  | [] => rfl
  | [_] => rfl
  | command :: count :: rest =>
    unfold decode? decode
    by_cases hshort : rest.length < count.toNat % pauseFlag
    · simp [hshort]
    · have hbehind : behind? (count.toNat % pauseFlag) rest =
          some (rest.drop (count.toNat % pauseFlag)) := if_pos (Nat.le_of_not_lt hshort)
      by_cases hflag : count.toNat < pauseFlag
      · simp [hshort, hbehind, hflag]
      · simp only [hshort, hbehind, hflag, if_false]
        cases rest.drop (count.toNat % pauseFlag) <;> rfl

theorem decodeMany?_eq (n : Nat) (bytes : List UInt8) :
    decodeMany? n bytes = some (decodeMany n bytes) := by
  induction n generalizing bytes with
  | zero => rfl
  | succ n ih =>
    simp only [decodeMany?, decodeMany, decode?_eq]
    cases decode bytes with
    | none => rfl
    | some found => simp [ih]

theorem ofTable?_eq (table : List UInt8) : ofTable? table = some (ofTable table) := by
  cases table with
  | nil => rfl
  | cons count bytes => exact decodeMany?_eq _ bytes

end ScriptStep

open FrontPanel.Action

/-- The display after `count` more transfers, with these events logged behind those of before. -/
def logged (events : List SerialEvent) (count : Nat) (t : Tft) : Tft :=
  { t with bus := { t.bus with
      log := events.reverse ++ t.bus.log
      faults := t.bus.faults.advance count } }

theorem logged_logged (t : Tft) (events more : List SerialEvent) (m n : Nat) :
    (t.logged events m).logged more n = t.logged (events ++ more) (m + n) := by
  simp only [logged, Faults.advance_advance, List.reverse_append, List.append_assoc]

theorem setLine_data_logged (t : Tft) (high : Bool) :
    t.setLine .data high = t.logged [.level .data high] 0 := rfl

theorem setLine_select_logged (t : Tft) (high : Bool) :
    t.setLine .select high = t.logged (selecting t.hasSelect high) 0 := by
  unfold setLine selecting
  change (if t.hasSelect = true then _ else _) = _
  split <;> rfl

/-- Started in `t` the action makes `count` transfers and logs `events` if all of them succeed. If number
`n` is the first to fail, it fails then and has logged `cut n`. -/
structure Logs {α : Type} (t : Tft) (x : Action TftError Tft α) (count : Nat)
    (events : List SerialEvent) (cut : Nat → List SerialEvent) : Prop where
  answers : t.bus.faults.Clean count → ∃ a, x t = .ok a (t.logged events count)
  fails : ∀ n, n < count → t.bus.faults.FirstAt n →
    x t = .error .transfer (t.logged (cut n) (n + 1))

theorem write_logs (t : Tft) (bytes : List UInt8) :
    Logs t (onBus (SerialBus.write bytes)) 1 [.write bytes] fun _ => [.writeFailed bytes] := by
  constructor
  · intro hclean
    have hnow : t.bus.faults.now = false := hclean 0 Nat.one_pos
    refine ⟨(), ?_⟩
    unfold onBus within failingAs SerialBus.write
    rw [hnow]
    rfl
  · intro n hn hfirst
    obtain rfl : n = 0 := by omega
    have hnow : t.bus.faults.now = true := hfirst.fails
    unfold onBus within failingAs SerialBus.write
    rw [hnow]
    rfl

namespace Logs

variable {α β : Type} {t : Tft} {k m : Nat} {events more : List SerialEvent}
  {cut cut' : Nat → List SerialEvent}

theorem bind {x : Action TftError Tft α} {f : α → Action TftError Tft β} (hx : Logs t x k events cut)
    (hf : ∀ a, Logs (t.logged events k) (f a) m more cut') :
    Logs t (x >>= f) (k + m) (events ++ more)
      fun n => if n < k then cut n else events ++ cut' (n - k) := by
  constructor
  · intro hclean
    obtain ⟨a, hrun⟩ := hx.answers (hclean.mono (Nat.le_add_right k m))
    obtain ⟨b, hrest⟩ := (hf a).answers hclean.advance
    exact ⟨b, by rw [bind_of_ok hrun, hrest, logged_logged]⟩
  · intro n hn hfirst
    by_cases hk : n < k
    · rw [if_pos hk, bind_of_error (hx.fails n hk hfirst)]
    · rw [if_neg hk]
      -- the first part is through, and the rest meets the fault
      obtain ⟨i, rfl⟩ : ∃ i, n = k + i := ⟨n - k, by omega⟩
      obtain ⟨a, hrun⟩ := hx.answers (hfirst.clean.mono (Nat.le_add_right k i))
      have hrest := (hf a).fails i (by omega) hfirst.advance
      rw [bind_of_ok hrun, hrest, logged_logged, Nat.add_sub_cancel_left, Nat.add_assoc]

theorem closing {x : Action TftError Tft α} {close : Tft → Tft} (hx : Logs t x k events cut)
    (hclose : ∀ past n, close (t.logged past n) = (t.logged past n).logged more 0) :
    Logs t (x.closing close) k (events ++ more) fun n => cut n ++ more := by
  constructor
  · intro hclean
    obtain ⟨a, hrun⟩ := hx.answers hclean
    refine ⟨a, ?_⟩
    simp only [Action.closing, hrun, hclose, logged_logged, Nat.add_zero]
  · intro n hn hfirst
    simp only [Action.closing, hx.fails n hn hfirst, hclose, logged_logged, Nat.add_zero]

theorem pure (a : α) : Logs t (Pure.pure a) 0 [] fun _ => [] :=
  ⟨fun _ => ⟨a, rfl⟩, fun n hn => absurd hn (Nat.not_lt_zero n)⟩

theorem change {f : Tft → Tft} (hf : f t = t.logged events 0) :
    Logs t (modify f : Action TftError Tft PUnit) 0 events fun _ => [] :=
  ⟨fun _ => ⟨⟨⟩, congrArg (EStateM.Result.ok PUnit.unit) hf⟩,
    fun n hn => absurd hn (Nat.not_lt_zero n)⟩

theorem congr {x : Action TftError Tft α} (hx : Logs t x k events cut) (hevents : events = more)
    (hcut : ∀ n, n < k → cut n = cut' n) : Logs t x k more cut' :=
  ⟨hevents ▸ hx.answers, fun n hn hfirst => hcut n hn ▸ hx.fails n hn hfirst⟩

theorem change_bind {f : Tft → Tft} {g : PUnit → Action TftError Tft β}
    (hf : f t = t.logged events 0) (hg : Logs (t.logged events 0) (g ⟨⟩) m more cut') :
    Logs t (modify f >>= g) m (events ++ more) fun n => events ++ cut' n := by
  have h := bind (change hf) (f := g) fun _ => hg
  rw [Nat.zero_add] at h
  exact h.congr rfl fun n _ => if_neg (Nat.not_lt_zero n)

theorem transaction {x : Action TftError Tft α}
    (hx : Logs (t.logged (selecting t.hasSelect false) 0) x k events cut) :
    Logs t (Tft.transaction x) k
      (selecting t.hasSelect false ++ (events ++ selecting t.hasSelect true))
      fun n => selecting t.hasSelect false ++ (cut n ++ selecting t.hasSelect true) := by
  have hclosing : Logs (t.logged (selecting t.hasSelect false) 0) (x.closing (setLine .select true)) k
      (events ++ selecting t.hasSelect true) fun n => cut n ++ selecting t.hasSelect true :=
    hx.closing fun _ _ => setLine_select_logged _ true
  constructor
  · intro hclean
    obtain ⟨a, hrun⟩ := hclosing.answers hclean
    refine ⟨a, ?_⟩
    unfold Tft.transaction
    rw [setLine_select_logged, hrun, logged_logged, Nat.zero_add]
  · intro n hn hfirst
    unfold Tft.transaction
    rw [setLine_select_logged, hclosing.fails n hn hfirst, logged_logged, Nat.zero_add]

end Logs

/-- A command that fails at its first transfer, the command byte, or at the one of its arguments. -/
def cutCommandEvents (command : UInt8) (arguments : List UInt8) : Nat → List SerialEvent
  | 0 => [.level .data false, .writeFailed [command], .level .data true]
  | _ => [.level .data false, .write [command], .level .data true, .writeFailed arguments]

theorem send_logs (t : Tft) (c : UInt8) (arguments : List UInt8) :
    Logs t (send c arguments) (commandTransfers arguments) (commandEvents c arguments)
      (cutCommandEvents c arguments) := by
  have hbyte (u : Tft) : Logs u ((onBus (SerialBus.write [c])).closing (setLine .data true)) 1
      ([.write [c]] ++ [.level .data true]) fun _ => [.writeFailed [c]] ++ [.level .data true] :=
    (write_logs u [c]).closing fun _ _ => setLine_data_logged _ true
  have harguments (u : Tft) : Logs u
      (if arguments ≠ [] then onBus (SerialBus.write arguments) else pure ())
      (if arguments ≠ [] then 1 else 0) (if arguments ≠ [] then [.write arguments] else [])
      fun _ => [.writeFailed arguments] := by
    split
    · exact write_logs u arguments
    · exact (Logs.pure ()).congr rfl fun n hn => absurd hn (Nat.not_lt_zero n)
  have hrest := (hbyte (t.logged [.level .data false] 0)).bind fun _ => harguments _
  have h : Logs t (send c arguments) (commandTransfers arguments) _ _ :=
    Logs.change_bind (g := fun _ => _) (setLine_data_logged t false) hrest
  refine h.congr rfl fun n _ => ?_
  cases n <;> rfl

namespace ScriptStep

/-- A step that goes through: its command in a transaction, and then its pause. -/
def events (wired : Bool) (s : ScriptStep) : List SerialEvent :=
  selecting wired false ++ (commandEvents s.command s.arguments ++ selecting wired true) ++
    (s.milliseconds.map SerialEvent.waitMilliseconds).toList

/-- A step that fails at its transfer number `n`. -/
def cutEvents (wired : Bool) (s : ScriptStep) (n : Nat) : List SerialEvent :=
  selecting wired false ++ (cutCommandEvents s.command s.arguments n ++ selecting wired true)

end ScriptStep

theorem runStep_logs (t : Tft) (s : ScriptStep) :
    Logs t (runStep s) s.transfers (s.events t.hasSelect) (s.cutEvents t.hasSelect) := by
  obtain ⟨c, arguments, pause⟩ := s
  have hcommand := Logs.transaction (send_logs (t.logged (selecting t.hasSelect false) 0) c arguments)
  have hpause (u : Tft) (n : Nat) : Logs u (modify (record (.waitMilliseconds n))) 0
      [.waitMilliseconds n] fun _ => [] := Logs.change rfl
  cases pause with
  | none => exact (hcommand.bind fun _ => Logs.pure _).congr rfl fun n hn => if_pos hn
  | some b => exact (hcommand.bind fun _ => hpause _ _).congr rfl fun n hn => if_pos hn

def scriptCutEvents (wired : Bool) : List ScriptStep → Nat → List SerialEvent
  | [], _ => []
  | s :: rest, n =>
    if n < s.transfers then s.cutEvents wired n
    else s.events wired ++ scriptCutEvents wired rest (n - s.transfers)

theorem runTable_logs (t : Tft) (table : List UInt8) :
    Logs t (runTable table) (scriptTransfers (ScriptStep.ofTable table))
      ((ScriptStep.ofTable table).flatMap (ScriptStep.events t.hasSelect))
      (scriptCutEvents t.hasSelect (ScriptStep.ofTable table)) := by
  unfold runTable
  generalize ScriptStep.ofTable table = steps
  induction steps generalizing t with
  | nil => exact Logs.pure _
  | cons s rest ih =>
    rw [List.forM_eq_forM, List.forM_cons]
    exact (runStep_logs t s).bind fun _ => ih _

/-- A transfer of a script belongs to one of its steps. -/
theorem exists_step_of_lt (wired : Bool) {steps : List ScriptStep} {n : Nat}
    (hn : n < scriptTransfers steps) :
    ∃ done s rest i, steps = done ++ s :: rest ∧ i < s.transfers ∧ n = scriptTransfers done + i ∧
      scriptCutEvents wired steps n =
        done.flatMap (ScriptStep.events wired) ++ s.cutEvents wired i := by
  induction steps generalizing n with
  | nil => exact absurd hn (Nat.not_lt_zero n)
  | cons s steps ih =>
    rw [scriptTransfers] at hn
    by_cases hs : n < s.transfers
    · exact ⟨[], s, steps, n, rfl, hs, (Nat.zero_add n).symm, if_pos hs⟩
    · obtain ⟨done, s', rest, i, rfl, hi, hsplit, hcut⟩ := ih (n := n - s.transfers) (by omega)
      refine ⟨s :: done, s', rest, i, rfl, hi, ?_, ?_⟩
      · rw [scriptTransfers]
        omega
      · rw [scriptCutEvents, if_neg hs, hcut, List.flatMap_cons, List.append_assoc]

/-- A run logs all steps of its table and answers, or it stops in the middle of a step: at the first
transfer of all that fails. -/
theorem runTable_cases (t : Tft) (table : List UInt8) :
    (t.bus.faults.Clean (scriptTransfers (ScriptStep.ofTable table)) ∧
      runTable table t = .ok () (t.logged
        ((ScriptStep.ofTable table).flatMap (ScriptStep.events t.hasSelect))
        (scriptTransfers (ScriptStep.ofTable table)))) ∨
    ∃ done s rest i, ScriptStep.ofTable table = done ++ s :: rest ∧ i < s.transfers ∧
      t.bus.faults.FirstAt (scriptTransfers done + i) ∧
      runTable table t = .error .transfer (t.logged
        (done.flatMap (ScriptStep.events t.hasSelect) ++ s.cutEvents t.hasSelect i)
        (scriptTransfers done + i + 1)) := by
  have hlogs := runTable_logs t table
  rcases t.bus.faults.clean_or_firstAt (scriptTransfers (ScriptStep.ofTable table)) with
    hclean | ⟨n, hn, hfirst⟩
  · obtain ⟨_, hrun⟩ := hlogs.answers hclean
    exact .inl ⟨hclean, hrun⟩
  · obtain ⟨done, s, rest, i, hsteps, hi, rfl, hcut⟩ := exists_step_of_lt t.hasSelect hn
    have hrun := hlogs.fails _ hn hfirst
    rw [hcut] at hrun
    exact .inr ⟨done, s, rest, i, hsteps, hi, hfirst, hrun⟩

open ScriptStep in
/-- What was encoded is decoded again, whatever follows it, and the greatest pause stands for half a second.
Any table is decoded without an access behind its end, to no more steps than it announces; they stand in it
one behind the other, and no complete step follows if they are fewer. A table that is cut short loses steps
at its end only. A run puts the steps on the bus in order, and stops at the first transfer that fails. -/
theorem table_decoded_and_run :
    (∀ (steps : List ScriptStep) (trailing : List UInt8), steps.length ≤ 255 →
      (∀ s ∈ steps, s.arguments.length ≤ 127) →
        ofTable (toTable steps ++ trailing) = steps ∧
        (ofTable (toTable steps ++ trailing)).map milliseconds =
          steps.map fun s => s.pause.map fun p => if p = 255 then 500 else p.toNat) ∧
    (∀ table : List UInt8,
      (ofTable table).length ≤ (table.headD 0).toNat ∧
      ofTable? table = some (ofTable table) ∧
      (∀ s ∈ ofTable table, s.arguments.length ≤ 127) ∧
      (∃ rest, table = table.take 1 ++ (ofTable table).flatMap encode ++ rest ∧
        ((ofTable table).length = (table.headD 0).toNat ∨
          ∀ (s : ScriptStep) (more : List UInt8), s.arguments.length ≤ 127 →
            rest ≠ s.encode ++ more)) ∧
      ∀ n, ofTable (table.take n) <+: ofTable table) ∧
    ∀ (table : List UInt8) (t : Tft),
      (t.bus.faults.Clean (scriptTransfers (ofTable table)) ∧
        runTable table t = .ok () (t.logged ((ofTable table).flatMap (events t.hasSelect))
          (scriptTransfers (ofTable table)))) ∨
      ∃ done s rest i, ofTable table = done ++ s :: rest ∧ i < s.transfers ∧
        t.bus.faults.FirstAt (scriptTransfers done + i) ∧
        runTable table t = .error .transfer (t.logged
          (done.flatMap (events t.hasSelect) ++ s.cutEvents t.hasSelect i)
          (scriptTransfers done + i + 1)) := by
  refine ⟨fun steps trailing hlength hsteps => ?_, fun table => ?_, fun table t => ?_⟩
  · have hread : ofTable (toTable steps ++ trailing) = steps :=
      ofTable_toTable hlength (fun s hs => Nat.lt_succ_of_le (hsteps s hs)) trailing
    exact ⟨hread, by rw [hread]; rfl⟩
  · obtain ⟨rest, htable, hfits, hend⟩ := exists_rest_ofTable table
    refine ⟨length_ofTable_le table, ofTable?_eq table, fun s hs => Nat.le_of_lt_succ (hfits s hs),
      ⟨rest, htable, ?_⟩, ofTable_take_prefix table⟩
    refine hend.imp_right fun hnone s more hs => ?_
    exact decode_eq_none_iff.mp hnone s more (Nat.lt_succ_of_le hs)
  · exact runTable_cases t table

/-- A step with the longest pause and one with arguments, in front of a byte that belongs to neither. -/
theorem pausing_table_decoded :
    let steps : List ScriptStep :=
      [⟨Command.sleepOut, [], some 255⟩, ⟨Command.columns, [0, 0, 0, 240], none⟩]
    steps.length ≤ 255 ∧ (∀ s ∈ steps, s.arguments.length ≤ 127) ∧
      ScriptStep.ofTable (ScriptStep.toTable steps ++ [42]) = steps ∧
      (ScriptStep.ofTable (ScriptStep.toTable steps ++ [42])).map ScriptStep.milliseconds =
        [some 500, none] := by
  intro steps
  have hlength : steps.length ≤ 255 := by decide
  have harguments : ∀ s ∈ steps, s.arguments.length ≤ 127 := by decide
  obtain ⟨hread, hpauses⟩ := table_decoded_and_run.1 steps [42] hlength harguments
  exact ⟨hlength, harguments, hread, hpauses⟩

end FrontPanel.Tft
