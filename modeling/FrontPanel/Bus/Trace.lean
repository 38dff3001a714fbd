import FrontPanel.Bus.Registers
import FrontPanel.Bus.Serial
import FrontPanel.Text.Hex

/-!
# Bus traces

The written form of what happens on a bus. Pixel data is mostly the same word over and over, and is
written as that word and its count.
-/

namespace FrontPanel

set_option autoImplicit false

namespace SerialEvent

/-- The word that a list of bytes repeats, if it holds at least two words and all are equal. -/
def repeatedWord : List UInt8 → Option (List UInt8)
  | [a, b, c, d] => if a = c ∧ b = d then some [a, b] else none
  | a :: b :: c :: d :: rest =>
    if a = c ∧ b = d then repeatedWord (c :: d :: rest) else none
  | _ => none

def dataText (bytes : List UInt8) : String :=
  match repeatedWord bytes with
  | some word => Text.hexBytes word ++ "x" ++ toString (bytes.length / 2)
  | none => Text.hexBytes bytes

def text (level : Line → Bool → String) : SerialEvent → String
  | .level line high => level line high
  | .write bytes => "w" ++ dataText bytes
  | .read count => "r" ++ toString count
  | .writeFailed _ => "!"
  | .readFailed _ => "!"
  | .waitMicroseconds n => "us" ++ toString n
  | .waitMilliseconds n => "ms" ++ toString n

end SerialEvent

def Line.levelText (line : Line) (high : Bool) : String :=
  (match line with
  | .select => "C"
  | .data => "D"
  | .reset => "R") ++ if high then "1" else "0"

namespace RegisterTransfer

def text : RegisterTransfer → String
  | .write data => " w" ++ Text.hexBytes data
  | .read count => " r" ++ toString count

end RegisterTransfer

namespace RegisterEvent

/-- Address and transfers of a transaction, and a mark if it failed. -/
def text (e : RegisterEvent) : String :=
  Text.hexBytes [UInt8.ofNat e.address] ++ String.join (e.transfers.map RegisterTransfer.text) ++
    if e.failed then " !" else ""

end RegisterEvent

end FrontPanel
