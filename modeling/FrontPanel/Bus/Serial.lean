import FrontPanel.Action
import FrontPanel.Bus.Faults

/-!
# The serial bus of a display

Besides the serial data a display is driven by three lines: chip select, one that tells commands from
data, and reset. All that happens on the bus and the lines is kept in one log, waiting times included.
-/

namespace FrontPanel

set_option autoImplicit false

inductive Line where
  | select
  /-- Low for commands, high for data. -/
  | data
  | reset
  deriving DecidableEq

inductive SerialEvent where
  | level (line : Line) (high : Bool)
  | write (bytes : List UInt8)
  | read (count : Nat)
  | writeFailed (bytes : List UInt8)
  | readFailed (count : Nat)
  | waitMicroseconds (n : Nat)
  | waitMilliseconds (n : Nat)
  deriving DecidableEq

structure SerialBus where
  /-- What happened, the latest first. -/
  log : List SerialEvent := []
  faults : Faults := {}
  /-- The bytes that the next reads give; zeros follow. -/
  incoming : List UInt8 := []

namespace SerialBus

def record (e : SerialEvent) (b : SerialBus) : SerialBus := { b with log := e :: b.log }

def history (b : SerialBus) : List SerialEvent := b.log.reverse

def forget (b : SerialBus) : SerialBus := { b with log := [] }

def write (bytes : List UInt8) : Action BusFault SerialBus Unit := fun b =>
  let b' := { b with faults := b.faults.next }
  if b.faults.now then .error .failed (b'.record (.writeFailed bytes))
  else .ok () (b'.record (.write bytes))

/-- Reads as many bytes as asked for; a read that fails takes none of the incoming bytes. -/
def read (count : Nat) : Action BusFault SerialBus (List UInt8) := fun b =>
  let b' := { b with faults := b.faults.next }
  if b.faults.now then .error .failed (b'.record (.readFailed count))
  else
    let bytes := b.incoming.take count
    .ok (bytes ++ List.replicate (count - bytes.length) 0)
      ({ b' with incoming := b.incoming.drop count }.record (.read count))

end SerialBus

end FrontPanel
