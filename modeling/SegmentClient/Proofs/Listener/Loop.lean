import SegmentClient.Listener
import SegmentClient.Proofs.Frame.Readings

namespace SegmentClient

namespace Listener

variable {σ : Type} [Pacing σ]

def noted (pacer : σ) : Reply → σ
  | .dataAppended ack => (Pacing.noteAck pacer ack.eventNumber).1
  | _ => pacer

def acks (pacer : σ) : Reply → List Event
  | .dataAppended ack => [.acked ack.eventNumber (Pacing.noteAck pacer ack.eventNumber).2]
  | _ => []

def Event.ofVerdict (reply : Reply) : Verdict → Event
  | .accept | .acceptAndStop => .processed reply
  | .refuse message => .failed message
  | .crash message? => .failed (failureMessage message?)

def entry (handler : Handler) (n : Nat) (pacer : σ) (reply : Reply) : List Event :=
  acks pacer reply ++ [.ofVerdict reply (handler n reply)]

/-- The events of replies handed over one after another, the first as the `n`th. -/
def story (handler : Handler) : Nat → σ → List Reply → List Event
  | _, _, [] => []
  | n, pacer, reply :: replies =>
    entry handler n pacer reply ++ story handler (n + 1) (noted pacer reply) replies

def replies (readings : List Reading) : List Reply := readings.filterMap (·.outcome.toOption)

def told (handler : Handler) (pacer : σ) (listener : Listener) (reply : Reply) : Listener :=
  { listener with
    handled := listener.handled + 1
    journal := listener.journal ++ entry handler listener.handled pacer reply }

def toldAll (handler : Handler) (pacer : σ) (listener : Listener) (replies : List Reply) : Listener :=
  { listener with
    handled := listener.handled + replies.length
    journal := listener.journal ++ story handler listener.handled pacer replies }

theorem push_append (journal : Array Event) (events : List Event) (event : Event) :
    (journal ++ events).push event = journal ++ (events ++ [event]) :=
  Array.ext' (by simp)

theorem append_append (journal : Array Event) (first second : List Event) :
    journal ++ first ++ second = journal ++ (first ++ second) :=
  Array.ext' (by simp)

theorem toldAll_cons (handler : Handler) (pacer : σ) (listener : Listener) (reply : Reply)
    (replies : List Reply) :
    listener.toldAll handler pacer (reply :: replies) =
      (listener.told handler pacer reply).toldAll handler (noted pacer reply) replies := by
  simp [toldAll, told, story, append_append, Nat.add_assoc, Nat.add_comm 1]

theorem note_eq (listener : Listener) (pacer : σ) (reply : Reply) :
    listener.note pacer reply =
      (noted pacer reply, { listener with journal := listener.journal ++ acks pacer reply }) := by
  cases reply <;> simp [note, noted, acks, record]

theorem listen_of_error (handler : Handler) {source rest : Source} {fault : FrameFault} {stopped : Bool}
    (hread : source.read = ⟨.error fault, stopped, rest⟩)
    (listener : Listener) (h : listener.stopped = false) (pacer : σ) :
    let next := if stopped then listener.stop else listener
    listen handler source listener pacer =
      if fault.aborts then ⟨next, pacer, rest, .aborted⟩
      else ⟨next.fail, pacer, rest, if next.stopped then .silenced fault else .failed fault⟩ := by
  intro next
  rw [listen, if_neg (by simp [h])]
  split
  · rename_i hother
    cases hread.symm.trans hother
    rfl
  · rename_i hother
    cases hread.symm.trans hother

theorem handOver_note_eq (handler : Handler) (listener : Listener) (pacer : σ) (reply : Reply) :
    (listener.note pacer reply).2.handOver handler reply =
      (listener.told handler pacer reply, decide (handler listener.handled reply = .acceptAndStop)) := by
  rw [note_eq]
  cases hverdict : handler listener.handled reply <;>
    simp [handOver, told, entry, record, Event.ofVerdict, hverdict, push_append]

section Staying

variable {handler : Handler} (hstays : ∀ n reply, handler n reply ≠ .acceptAndStop)
include hstays

theorem handOver_note (listener : Listener) (pacer : σ) (reply : Reply) :
    (listener.note pacer reply).2.handOver handler reply = (listener.told handler pacer reply, false) := by
  rw [handOver_note_eq, decide_eq_false (hstays listener.handled reply)]

theorem listen_of_ok {source rest : Source} {reply : Reply} {stopped : Bool}
    (hread : source.read = ⟨.ok reply, stopped, rest⟩)
    (listener : Listener) (h : listener.stopped = false) (pacer : σ) :
    listen handler source listener pacer = listen handler rest
      ((if stopped then listener.stop else listener).told handler pacer reply) (noted pacer reply) := by
  rw [listen, if_neg (by simp [h])]
  split
  · rename_i hother
    cases hread.symm.trans hother
  · rename_i hother
    cases hread.symm.trans hother
    have hhand := handOver_note hstays (if stopped then listener.stop else listener) pacer reply
    have hpacer := congrArg Prod.fst (note_eq (if stopped then listener.stop else listener) pacer reply)
    simp only [hhand, hpacer]
    rfl

/-- Readings that no stop falls into are told one after another, and the listening goes on behind
them. -/
theorem listen_through {before : List Reading} {reading : Reading} {after : List Reading}
    (hquiet : ∀ r ∈ before, r.stopped = false)
    {source : Source} (hreadings : source.readings = before ++ reading :: after)
    (listener : Listener) (h : listener.stopped = false) (pacer : σ) :
    ∃ here : Source, here.readings = reading :: after ∧
      listen handler source listener pacer =
        listen handler here (listener.toldAll handler pacer (replies before))
          ((replies before).foldl noted pacer) := by
  induction before generalizing source listener pacer with
  | nil => exact ⟨source, hreadings, by simp [replies, toldAll, story]⟩
  | cons first before ih =>
      obtain ⟨hread, ⟨_, hafter⟩ | ⟨⟨reply, hreply⟩, hafter⟩⟩ := Source.readings_eq_cons hreadings
      · cases before <;> cases hafter
      · obtain ⟨outcome, stopped, rest⟩ := first
        obtain rfl : stopped = false := hquiet _ (List.mem_cons_self ..)
        subst hreply
        obtain ⟨here, hhere, hlisten⟩ := ih (fun r hr => hquiet r (List.mem_cons_of_mem _ hr)) hafter.symm
          (listener.told handler pacer reply) h (noted pacer reply)
        refine ⟨here, hhere, ?_⟩
        rw [listen_of_ok hstays hread _ h, if_neg Bool.false_ne_true, hlisten, ← toldAll_cons]
        rfl

theorem listen_of_quiet {source : Source} {before : List Reading} {last : Reading}
    (hreadings : source.readings = before ++ [last])
    (hquiet : ∀ reading ∈ source.readings, reading.stopped = false)
    {fault : FrameFault} (hfault : last.outcome = .error fault)
    (listener : Listener) (h : listener.stopped = false) (pacer : σ) :
    listen handler source listener pacer =
      if fault.aborts then
        ⟨listener.toldAll handler pacer (replies source.readings),
          (replies source.readings).foldl noted pacer, last.source, .aborted⟩
      else
        ⟨(listener.toldAll handler pacer (replies source.readings)).fail,
          (replies source.readings).foldl noted pacer, last.source, .failed fault⟩ := by
  have hbefore : ∀ r ∈ before, r.stopped = false := fun r hr => hquiet r (by simp [hreadings, hr])
  have hlast : last.stopped = false := hquiet last (by simp [hreadings])
  have hreplies : replies source.readings = replies before := by
    simp [replies, hreadings, hfault, Except.toOption]
  obtain ⟨here, hhere, hthrough⟩ := listen_through hstays hbefore hreadings listener h pacer
  have hread : here.read = ⟨.error fault, false, last.source⟩ := by
    rw [(Source.readings_eq_cons hhere).1, ← hfault, ← hlast]
  have hrunning : (listener.toldAll handler pacer (replies before)).stopped = false := h
  rw [hreplies, hthrough, listen_of_error handler hread _ hrunning]
  simp only [Bool.false_eq_true, if_false, hrunning]

end Staying

def Event.isFinal : Event → Bool
  | .dropped | .tornDown => true
  | .acked .. | .processed _ | .failed _ => false

theorem notMem_entry {event : Event} (h : event.isFinal = true) (handler : Handler) (n : Nat) (pacer : σ)
    (reply : Reply) : event ∉ entry handler n pacer reply := by
  have hverdict : (Event.ofVerdict reply (handler n reply)).isFinal = false := by
    cases handler n reply <;> rfl
  have hacks : ∀ e ∈ acks pacer reply, e.isFinal = false := by
    cases reply <;> simp [acks, Event.isFinal]
  intro hmem
  obtain hmem | hmem := List.mem_append.mp hmem
  · exact Bool.false_ne_true ((hacks event hmem).symm.trans h)
  · rw [List.mem_singleton.mp hmem, hverdict] at h
    cases h

theorem notMem_story {event : Event} (h : event.isFinal = true) (handler : Handler) (n : Nat) (pacer : σ)
    (replies : List Reply) : event ∉ story handler n pacer replies := by
  induction replies generalizing n pacer with
  | nil => exact List.not_mem_nil
  | cons reply replies ih =>
      rw [story, List.mem_append, not_or]
      exact ⟨notMem_entry h handler n pacer reply, ih (n + 1) (noted pacer reply)⟩

end Listener

end SegmentClient
