import SegmentClient.Text.Blank
import SegmentClient.Text.Decimal

namespace SegmentClient

structure NodeAddress where
  host : String
  port : UInt16
deriving DecidableEq, Repr

inductive NodeAddress.Fault
  | missingPort (text : String)
  | emptyHost (text : String)
  | invalidPort (text : String)
deriving DecidableEq, Repr

namespace NodeAddress

def Fault.message : Fault → String
  | missingPort text => s!"expected 'host:port', got '{text}'"
  | emptyHost text => s!"empty host in '{text}'"
  | invalidPort text => s!"invalid port in '{text}'"

def maxPort : Nat := 65535

def splitPort? (text : List Char) : Option (List Char × List Char) :=
  match text.reverse.dropWhile (· ≠ ':') with
  | [] => none
  | _ :: host => some (host.reverse, (text.reverse.takeWhile (· ≠ ':')).reverse)

def stripBrackets (host : List Char) : List Char :=
  Text.dropEndWhile (· = ']') (host.dropWhile (· = '['))

/-- Reads `host:port`. The host is looked at before the port. -/
def parse (text : String) : Except Fault NodeAddress :=
  let trimmed := Text.trim text.toList
  match splitPort? trimmed with
  | none => .error (.missingPort (String.ofList trimmed))
  | some (host, port) =>
    let host := stripBrackets host
    if host.isEmpty then .error (.emptyHost (String.ofList trimmed))
    else
      match Text.Decimal.read maxPort port with
      | .error _ => .error (.invalidPort (String.ofList trimmed))
      | .ok port => .ok ⟨String.ofList host, UInt16.ofNat port⟩

def shown (address : NodeAddress) : List Char :=
  let host := address.host.toList
  (if ':' ∈ host then '[' :: host ++ [']'] else host)
    ++ ':' :: Text.Decimal.write address.port.toNat

def display (address : NodeAddress) : String := String.ofList address.shown

instance : ToString NodeAddress := ⟨display⟩

end NodeAddress

end SegmentClient
