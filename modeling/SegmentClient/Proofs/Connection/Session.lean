import SegmentClient.Proofs.Connection.Calls
import SegmentClient.Proofs.Connection.Teardown

namespace SegmentClient.Connection

open Listener

variable {σ : Type}

structure Ready (c : Connection (Outbox σ)) : Prop where
  notClosed : c.closed = false
  notPoisoned : c.poisoned = false
  running : c.listener.stopped = false
  drained : c.outbox.Drained

theorem ready_of_connect {network : Network} {files : Files} {settings : Settings} {abandoned : Bool}
    {location : NodeAddress} {pacer : σ} {sink : Sink} {c : Connection (Outbox σ)}
    (h : connect network files settings abandoned location { pacer, out := { sink } } = .ok c) : c.Ready := by
  obtain rfl := eq_of_connect h
  exact ⟨rfl, rfl, rfl, rfl, rfl⟩

/-- Replies may have been heard in between; else the connection stands as it stood. -/
structure Undisturbed (before after : Connection (Outbox σ)) : Prop where
  out : after.outbox.out = before.outbox.out
  pending : after.outbox.pending = before.outbox.pending
  poisoned : after.poisoned = before.poisoned
  closed : after.closed = before.closed
  stopped : after.listener.stopped = before.listener.stopped
  dropped : after.told .dropped = before.told .dropped
  shutdowns : after.shutdowns = before.shutdowns

namespace Undisturbed

variable {a b c : Connection (Outbox σ)}

theorem refl (c : Connection (Outbox σ)) : Undisturbed c c := ⟨rfl, rfl, rfl, rfl, rfl, rfl, rfl⟩

theorem trans (h : Undisturbed a b) (k : Undisturbed b c) : Undisturbed a c where
  out := k.out.trans h.out
  pending := k.pending.trans h.pending
  poisoned := k.poisoned.trans h.poisoned
  closed := k.closed.trans h.closed
  stopped := k.stopped.trans h.stopped
  dropped := k.dropped.trans h.dropped
  shutdowns := k.shutdowns.trans h.shutdowns

theorem ready (h : Undisturbed a b) (hready : a.Ready) : b.Ready where
  notClosed := h.closed.trans hready.notClosed
  notPoisoned := h.poisoned.trans hready.notPoisoned
  running := h.stopped.trans hready.running
  drained := ⟨by rw [h.out, hready.drained.held], by rw [h.pending, hready.drained.pending]⟩

theorem closes (h : Undisturbed a b) (hclosed : a.closed = false) : Closes a b.close :=
  (closes_close (h.closed.trans hclosed)).of_eq h.stopped h.dropped h.shutdowns

end Undisturbed

/-- What may be done to a connection, one after the other. Replies come in between, and with them the
acknowledgements that the pacer is told of. -/
inductive Act
  | send (request : Request)
  | sendAppend (append : Append)
  | sendAll (appends : List Append)
  | close
  | hear (reply : Reply)
deriving DecidableEq, Repr

namespace Act

def call? : Act → Option Call
  | send request => some (.request request)
  | sendAppend append => some (.appends [append])
  | sendAll appends => some (.appends appends)
  | close | hear _ => none

def frames (act : Act) : List Frame := act.call?.elim [] Call.frames

def bytes (act : Act) : List UInt8 := act.frames.flatMap Frame.bytes

/-- What an act on a ready connection may come to: all of it has been sent and the connection is ready
for more, the connection has been closed, or a call has failed. -/
inductive Outcome (act : Act) (c : Connection (Outbox σ)) :
    Except ConnectionFault Unit → Connection (Outbox σ) → Prop
  | goesOn (next : Connection (Outbox σ)) (ready : next.Ready) (fits : ∀ frame ∈ act.frames, frame.fits = true)
      (taken : next.outbox.out.sink.taken = c.outbox.out.sink.taken ++ act.bytes)
      (dropped : next.told .dropped = c.told .dropped) (shutdowns : next.shutdowns = c.shutdowns)
      (stays : act ≠ .close) : Outcome act c (.ok ()) next
  | ends (next : Connection (Outbox σ)) (frames : act.frames = []) (closes : Closes c next)
      (drained : next.outbox.Drained) (taken : next.outbox.out.sink.taken = c.outbox.out.sink.taken) :
      Outcome act c (.ok ()) next
  | breaks (next : Connection (Outbox σ)) (fault : StreamFault) (part : List UInt8)
      (cause : ¬ (c.outbox.out.sink.Sturdy ∧ ∀ frame ∈ act.frames, frame.fits = true))
      (prefixed : part <+: act.bytes) (closes : Closes c next)
      (taken : next.outbox.out.sink.taken = c.outbox.out.sink.taken ++ part) :
      Outcome act c (.error (.failed fault)) next

namespace Outcome

variable {act : Act} {c next : Connection (Outbox σ)} {result : Except ConnectionFault Unit}

end Outcome

end Act

variable [Pacing σ]

namespace Act

def perform (handler : Handler) : Act → Connection (Outbox σ) →
    Except ConnectionFault Unit × Connection (Outbox σ)
  | send request, c => c.send request
  | sendAppend append, c => c.sendAppend append
  | sendAll appends, c => c.sendAll appends
  | close, c => (.ok (), c.close)
  | hear reply, c => (.ok (), c.hear handler reply)

end Act

def run (handler : Handler) : List Act → Connection (Outbox σ) →
    List (Except ConnectionFault Unit) × Connection (Outbox σ)
  | [], c => ([], c)
  | act :: acts, c =>
    match act.perform handler c with
    | (result, c) =>
      match run handler acts c with
      | (results, c) => (result :: results, c)

end SegmentClient.Connection
