import SegmentClient.Connection.Basic

namespace SegmentClient.Connection

structure Teardown where
  closed : Bool := false
  stopped : Bool := false
  notices : Nat := 0
  shutdowns : Nat := 0
deriving DecidableEq, Repr

/-- What a thread is about to do. Who closes a connection marks it closed, stops the listener, tells
the handler, and shuts the socket down; a listener that fails stops itself, tells the handler, marks
the connection closed, and shuts the socket down. -/
inductive Phase
  | atRest
  | writing (call : Call)
  | marking
  | stopping
  | telling
  | shutting
  | failing
  | reporting
  | withdrawing
deriving DecidableEq, Repr

def Phase.step (t : Teardown) : Phase → Phase × Teardown
  | atRest => (atRest, t)
  | writing call => (writing call, t)
  | marking => (if t.closed then atRest else stopping, { t with closed := true })
  | stopping => (if t.stopped then shutting else telling, { t with stopped := true })
  | telling => (shutting, { t with notices := t.notices + 1 })
  | shutting => (atRest, { t with shutdowns := t.shutdowns + 1 })
  | failing => (if t.stopped then atRest else reporting, { t with stopped := true })
  | reporting => (withdrawing, { t with notices := t.notices + 1 })
  | withdrawing => (if t.closed then atRest else shutting, { t with closed := true })

def Phase.alone : Nat → Phase → Teardown → Teardown
  | 0, _, t => t
  | steps + 1, phase, t => alone steps (phase.step t).1 (phase.step t).2

structure Shared (ω : Type) where
  outbox : ω
  teardown : Teardown := {}
  phase : Nat → Phase := fun _ => .atRest

namespace Shared

variable {ω : Type} [CommandWriter ω]

def enter (s : Shared ω) (thread : Nat) (phase : Phase) : Shared ω :=
  { s with phase := fun other => if other = thread then phase else s.phase other }

/-- A step of a thread. Writing is one step, since a thread holds the outbox meanwhile; a thread
whose write fails closes the connection. -/
def advance (s : Shared ω) (thread : Nat) : Shared ω :=
  match s.phase thread with
  | .writing call =>
    match call.run s.outbox with
    | (.ok (), outbox) => { s with outbox }.enter thread .atRest
    | (.error _, outbox) => { s with outbox }.enter thread .marking
  | phase => { s with teardown := (phase.step s.teardown).2 }.enter thread (phase.step s.teardown).1

/-- What may happen next: a thread that is at rest finds the connection open and is about to write,
begins to close it, or fails as its listener; or any thread takes a step. -/
inductive Step : Shared ω → Shared ω → Prop
  | call (s : Shared ω) (thread : Nat) (call : Call) (rest : s.phase thread = .atRest)
      (isOpen : s.teardown.closed = false) : Step s (s.enter thread (.writing call))
  | close (s : Shared ω) (thread : Nat) (rest : s.phase thread = .atRest) :
      Step s (s.enter thread .marking)
  | fail (s : Shared ω) (thread : Nat) (rest : s.phase thread = .atRest) :
      Step s (s.enter thread .failing)
  | advance (s : Shared ω) (thread : Nat) : Step s (s.advance thread)

inductive Reachable (outbox : ω) : Shared ω → Prop
  | start : Reachable outbox { outbox }
  | step {s t : Shared ω} : Reachable outbox s → Step s t → Reachable outbox t

end Shared

variable {ω : Type}

def teardown (c : Connection ω) : Teardown where
  closed := c.closed
  stopped := c.listener.stopped
  notices := c.listener.journal.toList.count .dropped
  shutdowns := c.shutdowns

theorem teardown_close (c : Connection ω) :
    c.close.teardown = Phase.marking.alone 4 c.teardown := by
  cases hclosed : c.closed <;> cases hstopped : c.listener.stopped <;>
    simp [teardown, close, flagClosed, stopListener, shutDown, Listener.stop, Listener.record,
      Phase.alone, Phase.step, hclosed, hstopped]

theorem teardown_fail (fault : FrameFault) (c : Connection ω) (h : c.listener.stopped = false) :
    (c.fail fault).teardown = Phase.failing.alone 4 c.teardown := by
  cases hclosed : c.closed <;>
    simp [teardown, fail, flagClosed, shutDown, Listener.fail, Listener.stop, Listener.record,
      Phase.alone, Phase.step, h, hclosed]

end SegmentClient.Connection
