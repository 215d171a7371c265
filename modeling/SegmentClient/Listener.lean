import SegmentClient.Frame
import SegmentClient.Log
import SegmentClient.Pacing

namespace SegmentClient

/-- What handling a reply comes to. A handler may accept a reply and, while at it, ask for the end
of the connection; a handler that crashes may leave no message. -/
inductive Verdict
  | accept
  | acceptAndStop
  | refuse (message : String)
  | crash (message? : Option String)
deriving DecidableEq, Repr

abbrev Handler := Nat → Reply → Verdict

inductive Listener.Event
  | acked (eventNumber : Int64) (outstanding : Int64)
  | processed (reply : Reply)
  | failed (message : String)
  | dropped
  | tornDown
deriving DecidableEq, Repr

structure Listener where
  stopped : Bool := false
  handled : Nat := 0
  journal : Array Listener.Event := #[]
deriving Repr

namespace Listener

def record (listener : Listener) (event : Event) : Listener :=
  { listener with journal := listener.journal.push event }

def stop (listener : Listener) : Listener :=
  if listener.stopped then listener else { listener with stopped := true }.record .dropped

def fail (listener : Listener) : Listener :=
  if listener.stopped then listener else listener.stop.record .tornDown

def note {σ : Type} [Pacing σ] (listener : Listener) (pacer : σ) : Reply → σ × Listener
  | .dataAppended ack =>
    match Pacing.noteAck pacer ack.eventNumber with
    | (pacer, outstanding) => (pacer, listener.record (.acked ack.eventNumber outstanding))
  | _ => (pacer, listener)

def failureMessage (message? : Option String) : String :=
  message?.getD "reply processor panicked"

/-- Hands a reply to the handler, and says whether the handler asked for the end. A reply that is
not accepted does not end the listening. -/
def handOver (handler : Handler) (listener : Listener) (reply : Reply) : Listener × Bool :=
  let next := { listener with handled := listener.handled + 1 }
  match handler listener.handled reply with
  | .accept => (next.record (.processed reply), false)
  | .acceptAndStop => (next.record (.processed reply), true)
  | .refuse message => (next.record (.failed message), false)
  | .crash message? => (next.record (.failed (failureMessage message?)), false)

/-- How a listening ends: the listener found itself stopped, a reading failed after a stop, a
reading failed on its own, or the reading aborted and nobody is told. -/
inductive Ending
  | left
  | silenced (fault : FrameFault)
  | failed (fault : FrameFault)
  | aborted
deriving DecidableEq, Repr

def Ending.log (ending : Ending) (name : String) : List LogLine :=
  match ending with
  | .failed fault =>
    [⟨.error, s!"Error processing data from server {name}: {fault.message}"⟩]
  | _ => []

structure Finish (σ : Type) where
  listener : Listener
  pacer : σ
  source : Source
  ending : Ending

/-- Reads from a source for as long as it is not stopped. The stop flag is looked at before each
reading, never during one. -/
def listen {σ : Type} [Pacing σ] (handler : Handler) (source : Source) (listener : Listener)
    (pacer : σ) : Finish σ :=
  if listener.stopped then ⟨listener, pacer, source, .left⟩
  else
    match _h : source.read with
    | ⟨.error fault, stopped, rest⟩ =>
      let listener := if stopped then listener.stop else listener
      if fault.aborts then ⟨listener, pacer, rest, .aborted⟩
      else
        ⟨listener.fail, pacer, rest, if listener.stopped then .silenced fault else .failed fault⟩
    | ⟨.ok reply, stopped, rest⟩ =>
      let listener := if stopped then listener.stop else listener
      match listener.note pacer reply with
      | (pacer, listener) =>
        match listener.handOver handler reply with
        | (listener, ends) => listen handler rest (if ends then listener.stop else listener) pacer
termination_by Source.size source.items
decreasing_by exact Source.size_read _h

theorem stop_stop (listener : Listener) : listener.stop.stop = listener.stop := by
  cases h : listener.stopped <;> simp [stop, record, h]

end Listener

end SegmentClient
