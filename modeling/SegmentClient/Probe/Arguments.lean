import SegmentClient.NodeAddress
import SegmentClient.Settings
import SegmentClient.Text.Decimal

namespace SegmentClient.Probe

inductive Switch
  | wait
  | keepAlive
  | tls
  | trustStore
  | noValidateHostName
  | help
  | version
deriving DecidableEq, Repr

namespace Switch

def all : List Switch := [wait, keepAlive, tls, trustStore, noValidateHostName, help, version]

def long : Switch → String
  | wait => "--wait"
  | keepAlive => "--keep-alive"
  | tls => "--tls"
  | trustStore => "--trust-store"
  | noValidateHostName => "--no-validate-host-name"
  | help => "--help"
  | version => "--version"

def takesValue : Switch → Bool
  | wait | trustStore => true
  | _ => false

def shown : Switch → String
  | wait => "--wait <WAIT>"
  | trustStore => "--trust-store <TRUST_STORE>"
  | switch => switch.long

def ofLong? (name : String) : Option Switch := all.find? (·.long = name)

end Switch

structure Arguments where
  node : NodeAddress
  wait : Nat := 5
  keepAlive : Bool := false
  tls : Bool := false
  trustStore : Option StorePath := none
  noValidateHostName : Bool := false
deriving Repr

inductive Arguments.Fault
  | helpWanted
  | versionWanted
  | missingNode
  | repeated (switch : Switch)
  | unknown (argument : String)
  | missingValue (switch : Switch)
  | unwantedValue (switch : Switch) (value : String)
  | badNode (text : String) (fault : NodeAddress.Fault)
  | badWait (text : String) (fault : Text.Decimal.Fault)
deriving DecidableEq, Repr

namespace Arguments

def maxWait : Nat := 0xFFFFFFFFFFFFFFFF

namespace Fault

def exitCode : Fault → UInt32
  | helpWanted | versionWanted => 0
  | _ => 2

def detail? : Fault → Option String
  | badNode _ fault => some fault.message
  | badWait _ fault => some fault.message
  | _ => none

end Fault

/-- A value whose meaning has not been looked at. That is done when the next thing that counts comes
up, so that of two faults the earlier wins. -/
inductive Pending
  | nothing
  | node (text : String)
  | value (switch : Switch) (text? : Option String)
deriving DecidableEq, Repr

structure Gathered where
  pending : Pending := .nothing
  nodeSeen : Bool := false
  optionsEnded : Bool := false
  node? : Option NodeAddress := none
  wait? : Option Nat := none
  trustStore? : Option StorePath := none
  keepAlive : Bool := false
  tls : Bool := false
  noValidateHostName : Bool := false

namespace Gathered

def setFlag (g : Gathered) : Switch → Except Fault Gathered
  | .help => .error .helpWanted
  | .version => .error .versionWanted
  | .keepAlive => if g.keepAlive then .error (.repeated .keepAlive) else .ok { g with keepAlive := true }
  | .tls => if g.tls then .error (.repeated .tls) else .ok { g with tls := true }
  | .noValidateHostName =>
    if g.noValidateHostName then .error (.repeated .noValidateHostName)
    else .ok { g with noValidateHostName := true }
  | switch => .error (.missingValue switch)

def setValue (g : Gathered) (switch : Switch) (text : String) : Except Fault Gathered :=
  match switch with
  | .wait =>
    if g.wait?.isSome then .error (.repeated .wait)
    else
      match Text.Decimal.read maxWait text.toList with
      | .error fault => .error (.badWait text fault)
      | .ok seconds => .ok { g with wait? := some seconds }
  | .trustStore =>
    if g.trustStore?.isSome then .error (.repeated .trustStore)
    else if text.isEmpty then .error (.missingValue .trustStore)
    else .ok { g with trustStore? := some ⟨text⟩ }
  | switch => .error (.unwantedValue switch text)

def settle (g : Gathered) : Except Fault Gathered :=
  match g.pending with
  | .nothing => .ok g
  | .node text =>
    match NodeAddress.parse text with
    | .error fault => .error (.badNode text fault)
    | .ok node => .ok { g with pending := .nothing, node? := some node }
  | .value switch none => .error (.missingValue switch)
  | .value switch (some text) => setValue { g with pending := .nothing } switch text

def addNode (g : Gathered) (text : String) : Except Fault Gathered :=
  if g.nodeSeen then .error (.unknown text)
  else
    match g.settle with
    | .error fault => .error fault
    | .ok g => .ok { g with nodeSeen := true, pending := .node text }

def addSwitch (g : Gathered) (name : String) (value? : Option String) : Except Fault Gathered :=
  match Switch.ofLong? name, value? with
  | none, _ => .error (.unknown name)
  | some switch, value? =>
    match switch.takesValue, value? with
    | false, some value => .error (.unwantedValue switch value)
    | takesValue, value? =>
      match g.settle with
      | .error fault => .error fault
      | .ok g =>
        match takesValue, value? with
        | false, _ => g.setFlag switch
        | true, none => .ok { g with pending := .value switch none }
        | true, some value => g.setValue switch value

def add (g : Gathered) (argument : String) : Except Fault Gathered :=
  if g.optionsEnded then g.addNode argument
  else
    match argument.toList with
    | ['-', '-'] => .ok { g with optionsEnded := true }
    | '-' :: '-' :: body =>
      let name := String.ofList ('-' :: '-' :: body.takeWhile (· ≠ '='))
      match body.dropWhile (· ≠ '=') with
      | [] => g.addSwitch name none
      | _ :: value => g.addSwitch name (some (String.ofList value))
    | '-' :: 'h' :: _ => g.addSwitch "--help" none
    | '-' :: 'V' :: _ => g.addSwitch "--version" none
    | '-' :: letter :: _ => .error (.unknown (String.ofList ['-', letter]))
    | _ =>
      match g.pending with
      | .value switch none => .ok { g with pending := .value switch (some argument) }
      | _ => g.addNode argument

def addAll (g : Gathered) : List String → Except Fault Gathered
  | [] => g.settle
  | argument :: arguments =>
    match g.add argument with
    | .error fault => .error fault
    | .ok g => addAll g arguments

end Gathered

def parse (arguments : List String) : Except Fault Arguments :=
  match Gathered.addAll {} arguments with
  | .error fault => .error fault
  | .ok g =>
    match g.node? with
    | none => .error .missingNode
    | some node =>
      .ok
        { node
          wait := g.wait?.getD 5
          keepAlive := g.keepAlive
          tls := g.tls
          trustStore := g.trustStore?
          noValidateHostName := g.noValidateHostName }

def settings (arguments : Arguments) : Settings :=
  { tls := arguments.tls
    trustStore := arguments.trustStore
    checkHostName := !arguments.noValidateHostName }

end Arguments

end SegmentClient.Probe
