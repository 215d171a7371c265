import SegmentClient.Connection.Dialing
import SegmentClient.Listener
import SegmentClient.Outbox

namespace SegmentClient

/-- A connection that writes to `outbox`, which is `poisoned` once a thread has crashed with it in
hand. `inbox` holds what came in and was not yet read; `listening` says whether the listener is still
at it. -/
structure Connection (ω : Type) where
  location : NodeAddress
  outbox : ω
  poisoned : Bool := false
  inbox : Source := { items := [] }
  listener : Listener := {}
  listening : Bool := true
  closed : Bool := false
  shutdowns : Nat := 0
  log : Array LogLine := #[]

namespace Connection

variable {ω : Type}

/-- Opens a connection. Dialing comes first, then what TLS needs; a caller who has lost interest
meanwhile gets nothing, and the socket is given up. -/
def connect (network : Network) (files : Files) (settings : Settings) (abandoned : Bool)
    (location : NodeAddress) (outbox : ω) : Except ConnectionFault (Connection ω) :=
  match network.dial with
  | .error fault => .error (.system fault)
  | .ok () =>
    if settings.tls then .error (settings.secure files)
    else if abandoned then .error .closed
    else .ok { location, outbox }

theorem eq_of_connect {network : Network} {files : Files} {settings : Settings} {abandoned : Bool}
    {location : NodeAddress} {outbox : ω} {c : Connection ω}
    (h : connect network files settings abandoned location outbox = .ok c) : c = { location, outbox } := by
  rw [connect] at h
  split at h
  · cases h
  · split at h
    · cases h
    · split at h
      · cases h
      · exact (Except.ok.inj h).symm

def flagClosed (c : Connection ω) : Bool × Connection ω := (!c.closed, { c with closed := true })

def stopListener (c : Connection ω) : Connection ω := { c with listener := c.listener.stop }

def shutDown (c : Connection ω) : Connection ω := { c with shutdowns := c.shutdowns + 1 }

/-- Who flags the connection closed stops the listener, then shuts the socket down. -/
def close (c : Connection ω) : Connection ω :=
  match c.flagClosed with
  | (true, c) => c.stopListener.shutDown
  | (false, c) => c

def warn (c : Connection ω) (message : String) : Connection ω :=
  { c with log := c.log.push ⟨.warn, message⟩ }

def poison : StreamFault := ⟨.other, "encoder poisoned by an earlier panic"⟩

def lend (op : ω → Except FrameFault Unit × ω) (c : Connection ω) : Except StreamFault Unit × Connection ω :=
  if c.poisoned then (.error poison, c)
  else
    match op c.outbox with
    | (.ok (), outbox) => (.ok (), { c with outbox })
    | (.error fault, outbox) => (.error fault.toStream, { c with outbox })

def giveUp (fault : StreamFault) (c : Connection ω) : Connection ω :=
  (c.warn s!"Error writing to connection {c.location}: {fault.message}").close

/-- Writes to an open connection; a write that fails closes it. -/
def write (op : ω → Except FrameFault Unit × ω) (c : Connection ω) :
    Except ConnectionFault Unit × Connection ω :=
  if c.closed then (.error .closed, c)
  else
    match c.lend op with
    | (.ok (), c) => (.ok (), c)
    | (.error fault, c) => (.error (.failed fault), c.giveUp fault)

section Writing

variable {op : ω → Except FrameFault Unit × ω} {c : Connection ω} {outbox : ω} {fault : FrameFault}

theorem write_of_closed (h : c.closed = true) (op : ω → Except FrameFault Unit × ω) :
    c.write op = (.error .closed, c) := by
  rw [write, if_pos h]

end Writing

/-- Writes appends in order up to the first that fails, and flushes if none does. -/
def writeEach [CommandWriter ω] : List Append → ω → Except FrameFault Unit × ω
  | [], out => CommandWriter.flush out
  | append :: appends, out =>
    match CommandWriter.putAppend out append with
    | (.error fault, out) => (.error fault, out)
    | (.ok (), out) => writeEach appends out

inductive Call
  | request (request : Request)
  | appends (appends : List Append)
deriving DecidableEq, Repr

section Sending

variable [CommandWriter ω]

def Call.run : Call → ω → Except FrameFault Unit × ω
  | .request r, out => CommandWriter.putRequest out r
  | .appends rs, out => writeEach rs out

def send (request : Request) (c : Connection ω) : Except ConnectionFault Unit × Connection ω :=
  c.write (Call.request request).run

def sendAll (appends : List Append) (c : Connection ω) :
    Except ConnectionFault Unit × Connection ω :=
  c.write (Call.appends appends).run

def sendAppend (append : Append) (c : Connection ω) :
    Except ConnectionFault Unit × Connection ω :=
  c.sendAll [append]

abbrev Completion (ω κ : Type) := Except ConnectionFault Unit → Connection ω × κ → Connection ω × κ

def sendAsync {κ : Type} (appends : List Append) (complete : Completion ω κ) (c : Connection ω) (world : κ) :
    Connection ω × κ :=
  match c.sendAll appends with
  | (outcome, c) => complete outcome (c, world)

theorem send_closed (request : Request) (c : Connection ω) (h : c.closed = true) :
    c.send request = (.error .closed, c) :=
  write_of_closed h _

theorem sendAll_closed (appends : List Append) (c : Connection ω) (h : c.closed = true) :
    c.sendAll appends = (.error .closed, c) :=
  write_of_closed h _

end Sending

/-- A reading failed: the listener stops, and unless the connection is closed already it is closed
and its socket shut down. -/
def fail (fault : FrameFault) (c : Connection ω) : Connection ω :=
  let c := { c with
    listening := false
    listener := c.listener.fail
    log := c.log ++ (Listener.Ending.failed fault).log c.location.display }
  match c.flagClosed with
  | (true, c) => c.shutDown
  | (false, c) => c

theorem closed_close (c : Connection ω) : c.close.closed = true := by
  cases h : c.closed <;> simp [close, flagClosed, stopListener, shutDown, h]

theorem close_of_closed {c : Connection ω} (h : c.closed = true) : c.close = c := by
  have hsame : { c with closed := true } = c := by rw [← h]
  rw [close, flagClosed, h]
  exact hsame

theorem close_close (c : Connection ω) : c.close.close = c.close := close_of_closed c.closed_close

section Listening

variable {σ : Type} [Pacing σ]

def hear (handler : Handler) (c : Connection (Outbox σ)) (reply : Reply) : Connection (Outbox σ) :=
  match c.listener.note c.outbox.pacer reply with
  | (pacer, listener) =>
    match listener.handOver handler reply with
    | (listener, ends) =>
      let c := { c with listener, outbox := { c.outbox with pacer } }
      if ends then c.close else c

/-- Takes in one reading of the inbox. Unless the node has hung up, an inbox that ends within a
frame is waited for. -/
def takeIn (handler : Handler) (hungUp : Bool) (c : Connection (Outbox σ)) (reading : Reading) :
    Connection (Outbox σ) :=
  if c.listener.stopped || !c.listening then c
  else
    match reading.outcome with
    | .ok reply => { c with inbox := reading.source }.hear handler reply
    | .error fault =>
      if fault = .stream .endOfSource && !hungUp then c
      else if fault.aborts then { c with listening := false }
      else c.fail fault

def receive (handler : Handler) (bytes : List UInt8) (c : Connection (Outbox σ)) :
    Connection (Outbox σ) :=
  let inbox := { c.inbox with items := c.inbox.items ++ [Source.Item.chunk bytes] }
  inbox.readings.foldl (takeIn handler false) { c with inbox }

def hangUp (handler : Handler) (c : Connection (Outbox σ)) : Connection (Outbox σ) :=
  c.inbox.readings.foldl (takeIn handler true) c

end Listening

def display (c : Connection ω) : String :=
  s!"TcpClientConnection [location={c.location}, closed={c.closed}]"

end Connection

end SegmentClient
