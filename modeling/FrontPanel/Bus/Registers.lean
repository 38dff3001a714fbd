import FrontPanel.Action
import FrontPanel.Bus.Faults

/-!
# The register bus of the sensors

Sensors hang on a two-wire bus. A transaction writes bytes, reads bytes, or does both without letting go of
the bus in between. A bank of registers with an address pointer stands for the device on it: a write sets
the pointer to its first byte and stores the others from there on, and a read gives the bytes from the
pointer on. A transaction that fails changes nothing.
-/

namespace FrontPanel

set_option autoImplicit false

class RegisterBus (β : Type) where
  write (address : Nat) (data : List UInt8) : Action BusFault β Unit
  read (address count : Nat) : Action BusFault β (List UInt8)
  writeRead (address : Nat) (data : List UInt8) (count : Nat) : Action BusFault β (List UInt8)

inductive RegisterTransfer where
  | write (data : List UInt8)
  | read (count : Nat)
  deriving DecidableEq

structure RegisterEvent where
  address : Nat
  transfers : List RegisterTransfer
  failed : Bool
  deriving DecidableEq

/-- A device with 256 registers. -/
structure RegisterBank where
  address : Nat
  values : UInt8 → UInt8 := fun _ => 0
  pointer : UInt8 := 0
  failing : Bool := false
  /-- Transactions on these registers fail. -/
  failingRegisters : List UInt8 := []
  /-- What happened, the latest first. -/
  log : List RegisterEvent := []

namespace RegisterBank

def set (register value : UInt8) (r : RegisterBank) : RegisterBank :=
  { r with values := fun i => if i = register then value else r.values i }

def store : List UInt8 → RegisterBank → RegisterBank
  | [], r => r
  | byte :: rest, r => store rest { r.set r.pointer byte with pointer := r.pointer + 1 }

def fetch : Nat → RegisterBank → List UInt8 × RegisterBank
  | 0, r => ([], r)
  | n + 1, r =>
    let (bytes, r') := fetch n { r with pointer := r.pointer + 1 }
    (r.values r.pointer :: bytes, r')

def perform : List RegisterTransfer → RegisterBank → List UInt8 × RegisterBank
  | [], r => ([], r)
  | .write [] :: rest, r => perform rest r
  | .write (register :: data) :: rest, r => perform rest (store data { r with pointer := register })
  | .read count :: rest, r =>
    let (bytes, r) := fetch count r
    let (more, r) := perform rest r
    (bytes ++ more, r)

/-- The register that a transaction starts at. -/
def registerOf (r : RegisterBank) : List RegisterTransfer → UInt8
  | .write (register :: _) :: _ => register
  | _ => r.pointer

def transact (address : Nat) (transfers : List RegisterTransfer) :
    Action BusFault RegisterBank (List UInt8) := fun r =>
  let failed := r.failing || address != r.address ||
    r.failingRegisters.contains (r.registerOf transfers)
  let r := { r with log := ⟨address, transfers, failed⟩ :: r.log }
  if failed then .error .failed r
  else
    let (bytes, r) := perform transfers r
    .ok bytes r

def history (r : RegisterBank) : List RegisterEvent := r.log.reverse

def forget (r : RegisterBank) : RegisterBank := { r with log := [] }

instance : RegisterBus RegisterBank where
  write address data := do
    let _ ← transact address [.write data]
  read address count := transact address [.read count]
  writeRead address data count := transact address [.write data, .read count]

end RegisterBank

end FrontPanel
