import SegmentClient.Connection.Basic
import SegmentClient.Proofs.Frame.Poisoned
import SegmentClient.Proofs.Listener.Loop

namespace SegmentClient.Connection

open Listener

variable {σ : Type}

/-- The connection is open and its listener at work; nobody is about to stop it. -/
structure Live (c : Connection (Outbox σ)) : Prop where
  notClosed : c.closed = false
  listening : c.listening = true
  running : c.listener.stopped = false
  quiet : c.inbox.Quiet

theorem live_of_connect {network : Network} {files : Files} {settings : Settings} {abandoned : Bool}
    {location : NodeAddress} {outbox : Outbox σ} {c : Connection (Outbox σ)}
    (h : connect network files settings abandoned location outbox = .ok c) : c.Live := by
  obtain rfl := eq_of_connect h
  exact ⟨rfl, rfl, rfl, List.not_mem_nil⟩

def told {ω : Type} (c : Connection ω) (event : Event) : Nat := c.listener.journal.toList.count event

/-- From one state to the other the connection has been closed: its listener is stopped, the handler
has been told unless it was before, and the socket has been shut down. -/
structure Closes {ω : Type} (before after : Connection ω) : Prop where
  closed : after.closed = true
  stopped : after.listener.stopped = true
  dropped : after.told .dropped = before.told .dropped + (if before.listener.stopped then 0 else 1)
  shutdowns : after.shutdowns = before.shutdowns + 1

theorem closes_close {ω : Type} {c : Connection ω} (h : c.closed = false) : Closes c c.close := by
  refine ⟨c.closed_close, ?_, ?_, ?_⟩
  all_goals cases hrunning : c.listener.stopped <;>
    simp [close, flagClosed, stopListener, shutDown, stop, record, told, h, hrunning]

theorem Closes.of_eq {ω : Type} {a b c : Connection ω} (h : Closes b c)
    (hlistener : b.listener.stopped = a.listener.stopped) (hdropped : b.told .dropped = a.told .dropped)
    (hshutdowns : b.shutdowns = a.shutdowns) : Closes a c :=
  ⟨h.closed, h.stopped, hlistener ▸ hdropped ▸ h.dropped, hshutdowns ▸ h.shutdowns⟩

/-- From one state to the other the connection has come down, and all who are to know have been told,
once. -/
structure TornDown [Pacing σ] (before after : Connection (Outbox σ)) : Prop where
  stopped : after.listener.stopped = true
  dropped : after.told .dropped = before.told .dropped + 1
  tornDown : after.told .tornDown = before.told .tornDown + 1
  closed : after.closed = true
  shutdowns : after.shutdowns = before.shutdowns + 1
  send : ∀ request, after.send request = (.error .closed, after)
  sendAll : ∀ appends, after.sendAll appends = (.error .closed, after)

/-- From one state to the other the listener has gone, and nobody has been told. -/
structure Abandoned (before after : Connection (Outbox σ)) : Prop where
  listening : after.listening = false
  running : after.listener.stopped = false
  dropped : after.told .dropped = before.told .dropped
  tornDown : after.told .tornDown = before.told .tornDown
  notClosed : after.closed = false
  shutdowns : after.shutdowns = before.shutdowns

variable [Pacing σ]

def heard (handler : Handler) (c : Connection (Outbox σ)) (inbox : Source) (replies : List Reply) :
    Connection (Outbox σ) :=
  { c with
    inbox
    listener := c.listener.toldAll handler c.outbox.pacer replies
    outbox := { c.outbox with pacer := replies.foldl noted c.outbox.pacer } }

theorem told_heard {event : Event} (h : event.isFinal = true) (handler : Handler)
    (c : Connection (Outbox σ)) (inbox : Source) (replies : List Reply) :
    (c.heard handler inbox replies).told event = c.told event := by
  have hstory := notMem_story h handler c.listener.handled c.outbox.pacer replies
  simp [told, heard, toldAll, List.count_eq_zero_of_not_mem hstory]

theorem takeIn_of_error (handler : Handler) {c : Connection (Outbox σ)} (hlistening : c.listening = true)
    (hrunning : c.listener.stopped = false) {reading : Reading} {fault : FrameFault}
    (h : reading.outcome = .error fault) :
    c.takeIn handler true reading =
      if fault.aborts then { c with listening := false } else c.fail fault := by
  simp [takeIn, hlistening, hrunning, h]

section Staying

variable {handler : Handler} (hstays : ∀ n reply, handler n reply ≠ .acceptAndStop)
include hstays

theorem takeIn_of_ok (hungUp : Bool) {c : Connection (Outbox σ)} (hlistening : c.listening = true)
    (hrunning : c.listener.stopped = false) {reading : Reading} {reply : Reply}
    (h : reading.outcome = .ok reply) :
    c.takeIn handler hungUp reading = c.heard handler reading.source [reply] := by
  have hhand := handOver_note hstays c.listener c.outbox.pacer reply
  have hpacer := congrArg Prod.fst (note_eq c.listener c.outbox.pacer reply)
  simp only [takeIn, hlistening, hrunning, h, hear, hhand, hpacer]
  simp [heard, Listener.told, toldAll, story, hlistening]

theorem foldl_takeIn_of_ok (hungUp : Bool) {before : List Reading}
    (hok : ∀ reading ∈ before, ∃ reply, reading.outcome = .ok reply)
    {c : Connection (Outbox σ)} (hlistening : c.listening = true) (hrunning : c.listener.stopped = false) :
    ∃ inbox, before.foldl (takeIn handler hungUp) c = c.heard handler inbox (replies before) := by
  induction before generalizing c with
  | nil => exact ⟨c.inbox, by simp [heard, replies, toldAll, story]⟩
  | cons reading before ih =>
      obtain ⟨reply, hreply⟩ := hok reading (List.mem_cons_self ..)
      have hnext : (c.heard handler reading.source [reply]).listening = true := hlistening
      obtain ⟨inbox, hbefore⟩ := ih (fun r hr => hok r (List.mem_cons_of_mem _ hr)) hnext hrunning
      refine ⟨inbox, ?_⟩
      have hreplies : replies (reading :: before) = reply :: replies before := by
        simp [replies, hreply, Except.toOption]
      rw [List.foldl_cons, takeIn_of_ok hstays hungUp hlistening hrunning hreply, hbefore, hreplies]
      simp only [heard, toldAll_cons]
      rfl

theorem hangUp_eq {c : Connection (Outbox σ)} (hlive : c.Live) :
    ∃ inbox fault, (fault.aborts = true ↔ Poisoned (Source.ahead c.inbox.items)) ∧
      let next := c.heard handler inbox (replies c.inbox.readings)
      let finish := listen handler c.inbox c.listener c.outbox.pacer
      c.hangUp handler = (if fault.aborts then { next with listening := false } else next.fail fault) ∧
      finish.listener = (if fault.aborts then next.listener else next.listener.fail) ∧
      finish.ending = (if fault.aborts then .aborted else .failed fault) := by
  obtain ⟨before, last, fault, hreadings, hok, hfault⟩ := c.inbox.readings_eq_concat
  have hreplies : replies c.inbox.readings = replies before := by
    simp [replies, hreadings, hfault, Except.toOption]
  obtain ⟨inbox, hbefore⟩ := foldl_takeIn_of_ok hstays true hok hlive.listening hlive.running
  have hquiet := Source.stopped_readings hlive.quiet
  have hlisten := listen_of_quiet hstays hreadings hquiet hfault c.listener hlive.running c.outbox.pacer
  refine ⟨inbox, fault, Source.aborts_last_iff hreadings hok hfault, ?_, ?_⟩
  · have hlistening : (c.heard handler inbox (replies before)).listening = true := hlive.listening
    have hrunning : (c.heard handler inbox (replies before)).listener.stopped = false := hlive.running
    rw [hreplies, hangUp, hreadings, List.foldl_append, hbefore]
    exact takeIn_of_error handler hlistening hrunning hfault
  · rw [hlisten]
    cases fault.aborts <;> exact ⟨rfl, rfl⟩

end Staying

theorem tornDown_fail (fault : FrameFault) {c : Connection (Outbox σ)} (hclosed : c.closed = false)
    (hrunning : c.listener.stopped = false) : TornDown c (c.fail fault) := by
  have hafter : (c.fail fault).closed = true := by simp [fail, flagClosed, shutDown, hclosed]
  refine ⟨?_, ?_, ?_, hafter, ?_, fun request => send_closed request _ hafter,
    fun appends => sendAll_closed appends _ hafter⟩
  all_goals simp [fail, flagClosed, shutDown, hclosed, Listener.fail, stop, record, hrunning, told]

theorem TornDown.of_heard {handler : Handler} {c after : Connection (Outbox σ)} {inbox : Source}
    {replies : List Reply} (h : TornDown (c.heard handler inbox replies) after) : TornDown c after where
  stopped := h.stopped
  dropped := by rw [h.dropped, told_heard rfl]
  tornDown := by rw [h.tornDown, told_heard rfl]
  closed := h.closed
  shutdowns := h.shutdowns
  send := h.send
  sendAll := h.sendAll

theorem abandoned_heard (handler : Handler) {c : Connection (Outbox σ)} (hlive : c.Live) (inbox : Source)
    (replies : List Reply) : Abandoned c { c.heard handler inbox replies with listening := false } where
  listening := rfl
  running := hlive.running
  dropped := told_heard rfl handler c inbox replies
  tornDown := told_heard rfl handler c inbox replies
  notClosed := hlive.notClosed
  shutdowns := rfl

/-- When the node hangs up, the connection is torn down if and only if no payload overflowed, and the
listener's loop, run on the same inbox, ends alike. Else the connection stays open without a
listener. All this where memory for a text of less than 2^63 bytes is granted: where it is refused,
the program ends before that. -/
theorem tornDown_hangUp_iff (handler : Handler) (hstays : ∀ n reply, handler n reply ≠ .acceptAndStop)
    (c : Connection (Outbox σ)) (hlive : c.Live) :
    let finish := listen handler c.inbox c.listener c.outbox.pacer
    let poisoned := Poisoned (Source.ahead c.inbox.items)
    (c.hangUp handler).listener = finish.listener ∧
    (TornDown c (c.hangUp handler) ↔ ¬ poisoned) ∧
    ((∃ fault, fault.aborts = false ∧ finish.ending = .failed fault) ↔ ¬ poisoned) ∧
    (poisoned → Abandoned c (c.hangUp handler) ∧ finish.ending = .aborted) := by
  intro finish poisoned
  obtain ⟨inbox, fault, haborts, hhangUp, hlistener, hending⟩ := hangUp_eq hstays hlive
  have hfinish : finish.listener = _ := hlistener
  have hend : finish.ending = _ := hending
  have hpoisoned : (fault.aborts = true) = poisoned := propext haborts
  rw [← hpoisoned, hhangUp, hfinish, hend]
  cases hfault : fault.aborts with
  | false =>
      have hclosed : (c.heard handler inbox (replies c.inbox.readings)).closed = false := hlive.notClosed
      have hdown := (tornDown_fail fault hclosed hlive.running).of_heard
      have hlast : ((c.heard handler inbox (replies c.inbox.readings)).fail fault).listener =
          (c.heard handler inbox (replies c.inbox.readings)).listener.fail := by
        simp [fail, flagClosed, shutDown, hclosed]
      refine ⟨hlast, iff_of_true hdown (by simp), iff_of_true ⟨fault, hfault, rfl⟩ (by simp), ?_⟩
      intro h
      cases h
  | true =>
      have habandoned := abandoned_heard handler hlive inbox (replies c.inbox.readings)
      refine ⟨rfl, iff_of_false ?_ (by simp), iff_of_false (by simp) (by simp), fun _ => ⟨habandoned, rfl⟩⟩
      intro h
      exact Bool.false_ne_true (habandoned.running.symm.trans h.stopped)

theorem abandoned_hangUp :
    let payload := Wire.Field.encode .int64 0 ++ (Wire.BigEndian.encode 8 (Wire.maxRoom + 1) ++ [])
    let c : Connection (Outbox Pacing.Schedule) :=
      { location := ⟨"node", 12345⟩
        outbox := { pacer := ⟨[], 0⟩ }
        inbox := { items := [.chunk (⟨.noSuchSegment, payload⟩ : Frame).bytes] } }
    let handler : Handler := fun _ _ => .accept
    (∀ n reply, handler n reply ≠ .acceptAndStop) ∧ c.Live ∧ Poisoned (Source.ahead c.inbox.items) ∧
      Abandoned c (c.hangUp handler) := by
  intro payload c handler
  have hstays : ∀ n reply, handler n reply ≠ .acceptAndStop := fun _ _ => by simp [handler]
  have hlive : c.Live := ⟨rfl, rfl, rfl, by simp [Source.Quiet, c]⟩
  have hover : CommandKind.noSuchSegment.layout.Overflows payload :=
    .behind 0 (.claim _ (Wire.maxRoom + 1) [] rfl (Nat.le_refl _) (by decide))
  have hpoisoned : Poisoned (Source.ahead c.inbox.items) := .here [] rfl (by decide +kernel) hover
  exact ⟨hstays, hlive, hpoisoned, ((tornDown_hangUp_iff handler hstays c hlive).2.2.2 hpoisoned).1⟩

theorem not_tornDown_hangUp :
    let c : Connection (Outbox Pacing.Schedule) :=
      { location := ⟨"node", 12345⟩
        outbox := { pacer := ⟨[], 0⟩ }
        inbox := { items := [.chunk [0, 0, 0, 53, 0, 0, 0, 16, 0, 0, 0, 0, 0, 0, 0, 0, 128, 0, 0],
          .chunk [0, 0, 0, 0, 0]] } }
    let after := c.hangUp fun _ _ => .accept
    c.Live ∧ ¬ TornDown c after ∧ after.listener.journal.toList = [] ∧ after.closed = false := by
  intro c after
  have hlive : c.Live := ⟨rfl, rfl, rfl, by simp [Source.Quiet, c]⟩
  have hreadings := c.inbox.readings_eq_readTimes 0 (by decide +kernel)
  have hafter : after = (c.inbox.readTimes 1).foldl (takeIn (fun _ _ => .accept) true) c := by
    rw [← hreadings]
    rfl
  have hrunning : after.listener.stopped = false := by
    rw [hafter]
    decide +kernel
  refine ⟨hlive, fun h => Bool.false_ne_true (hrunning.symm.trans h.stopped), ?_, ?_⟩
  · rw [hafter]
    decide +kernel
  · rw [hafter]
    decide +kernel

end SegmentClient.Connection
