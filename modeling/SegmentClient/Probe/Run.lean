import SegmentClient.Connection.Basic
import SegmentClient.Probe.Shown
import SegmentClient.Probe.Usage

namespace SegmentClient.Probe

def objection? : Reply → Option String
  | .hello versions =>
    if wireVersion < versions.lowVersion then
      some s!"node requires wire version {versions.lowVersion.toInt}"
    else none
  | _ => none

def handler : Handler := fun _ reply =>
  match objection? reply with
  | none => .accept
  | some message => .refuse message

def replyLog (reply : Reply) : List LogLine :=
  let received : LogLine := ⟨.info, s!"received {showReply reply}"⟩
  match objection? reply with
  | none => [received]
  | some message => [received, ⟨.warn, s!"failed to process reply: {message}"⟩]

/-- What a node does: it waits for so many bytes, sends its own, and may hang up then. -/
structure Node where
  awaits : Nat
  sends : List UInt8
  hangsUp : Bool := true

structure Report where
  exitCode : UInt32
  output : List String := []
  errors : List String := []
  sent : List UInt8 := []

abbrev Line := Connection (Outbox Adaptive)

def repliesIn (bytes : List UInt8) : List Reply :=
  (Source.readings { items := [.chunk bytes] }).filterMap fun reading => reading.outcome.toOption

def greet (arguments : Arguments) (line : Line) : Except ConnectionFault Unit × Line :=
  match line.send (.hello {}) with
  | (.error fault, line) => (.error fault, line)
  | (.ok (), line) => if arguments.keepAlive then line.send .keepAlive else (.ok (), line)

def written (line : Line) : List UInt8 := line.outbox.out.sink.taken

def converse (node : Node) (line : Line) : Line × List LogLine :=
  let heard := if node.awaits ≤ (written line).length then node.sends else []
  let hangsUp := node.hangsUp && node.awaits ≤ (written line).length
  let before := line.receive handler heard
  let after := if hangsUp then before.hangUp handler else before
  let replies := (repliesIn heard).flatMap replyLog
  let dropped : List LogLine :=
    if after.closed then [⟨.warn, s!"{after.display} dropped by the node"⟩] else []
  let closed := after.close
  (closed, replies ++ after.log.toList ++ dropped ++ [⟨.info, closed.display⟩])

def run (network : Network) (files : Files) (node : Node) (arguments : List String) : Report :=
  match Arguments.parse arguments with
  | .error fault => { exitCode := fault.exitCode, output := fault.output, errors := fault.errors }
  | .ok arguments =>
    let refused (fault : ConnectionFault) (errors : List LogLine) (sent : List UInt8) : Report :=
      { exitCode := 1
        errors := errors.map (·.text) ++ [s!"Error: {showConnectionFault fault}"]
        sent }
    match Connection.connect network files arguments.settings false arguments.node
        ({ pacer := {} } : Outbox Adaptive) with
    | .error fault => refused fault [] []
    | .ok line =>
      let connected : LogLine := ⟨.info, s!"connected to {arguments.node}"⟩
      match greet arguments line with
      | (.error fault, line) => refused fault (connected :: line.log.toList) (written line)
      | (.ok (), line) =>
        match converse node line with
        | (line, log) =>
          { exitCode := 0, errors := (connected :: log).map (·.text), sent := written line }

end SegmentClient.Probe
