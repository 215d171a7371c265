import SegmentClient.Stream.Fault

namespace SegmentClient

inductive Sink.Turn
  | take (most : Nat)
  | fail (kind : StreamFault.Kind)
deriving DecidableEq, Repr

structure Sink.Call where
  offered : Nat
  taken : List UInt8
deriving DecidableEq, Repr

/-- A sink that takes everything once its turns are used up, and whose flushes succeed once its
flush turns are. `flushedAt` has for each flush how many write calls came before it. -/
structure Sink where
  turns : List Sink.Turn := []
  flushTurns : List (Option StreamFault.Kind) := []
  calls : Array Sink.Call := #[]
  flushedAt : Array Nat := #[]
deriving Repr

class ByteSink (ω : Type) where
  writeAll : ω → List UInt8 → Except StreamFault Unit × ω

namespace Sink

def taken (sink : Sink) : List UInt8 := sink.calls.toList.flatMap (·.taken)

def flushes (sink : Sink) : Nat := sink.flushedAt.size

inductive Halt
  | stalled
  | failed (kind : StreamFault.Kind)
deriving DecidableEq, Repr

structure Push where
  turns : List Turn
  calls : Array Call
  left : List UInt8
  halt? : Option Halt

/-- Offers all that is left again and again, until nothing is left, a call takes nothing, or a call
fails other than by an interruption. -/
def offer : List Turn → Array Call → List UInt8 → Push
  | turns, calls, [] => ⟨turns, calls, [], none⟩
  | [], calls, bytes => ⟨[], calls.push ⟨bytes.length, bytes⟩, [], none⟩
  | .fail kind :: turns, calls, bytes =>
    if kind = .interrupted then offer turns (calls.push ⟨bytes.length, []⟩) bytes
    else ⟨turns, calls.push ⟨bytes.length, []⟩, bytes, some (.failed kind)⟩
  | .take 0 :: turns, calls, bytes => ⟨turns, calls.push ⟨bytes.length, []⟩, bytes, some .stalled⟩
  | .take (most + 1) :: turns, calls, bytes =>
    offer turns (calls.push ⟨bytes.length, bytes.take (most + 1)⟩) (bytes.drop (most + 1))

def push (sink : Sink) (bytes : List UInt8) : Sink × List UInt8 × Option Halt :=
  let done := offer sink.turns sink.calls bytes
  ({ sink with turns := done.turns, calls := done.calls }, done.left, done.halt?)

def flush (sink : Sink) : Except StreamFault Unit × Sink :=
  let flushed := { sink with flushedAt := sink.flushedAt.push sink.calls.size }
  match sink.flushTurns with
  | [] => (.ok (), flushed)
  | none :: turns => (.ok (), { flushed with flushTurns := turns })
  | some kind :: turns => (.error (.ofKind kind), { flushed with flushTurns := turns })

def writeAll (sink : Sink) (bytes : List UInt8) : Except StreamFault Unit × Sink :=
  match sink.push bytes with
  | (sink, _, none) => (.ok (), sink)
  | (sink, _, some .stalled) => (.error .sinkStalled, sink)
  | (sink, _, some (.failed kind)) => (.error (.ofKind kind), sink)

instance : ByteSink Sink := ⟨writeAll⟩

theorem flushedAt_flush (sink : Sink) : sink.flush.2.flushedAt = sink.flushedAt.push sink.calls.size := by
  rw [flush]
  split <;> rfl

theorem flushes_flush (sink : Sink) : sink.flush.2.flushes = sink.flushes + 1 := by
  rw [flushes, flushedAt_flush, Array.size_push]
  rfl

theorem flatMap_taken_push (calls : Array Call) (call : Call) :
    (calls.push call).toList.flatMap (·.taken) = calls.toList.flatMap (·.taken) ++ call.taken := by
  rw [Array.toList_push, List.flatMap_append, List.flatMap_singleton]

theorem offer_takes (turns : List Turn) (calls : Array Call) (bytes : List UInt8) :
    ∃ part, part ++ (offer turns calls bytes).left = bytes ∧
      (offer turns calls bytes).calls.toList.flatMap (·.taken) =
        calls.toList.flatMap (·.taken) ++ part := by
  fun_induction offer turns calls bytes with
  | case1 => exact ⟨[], rfl, (List.append_nil _).symm⟩
  | case2 calls bytes => exact ⟨bytes, List.append_nil bytes, flatMap_taken_push ..⟩
  | case3 turns calls bytes hne ih =>
      obtain ⟨part, hleft, htaken⟩ := ih
      rw [flatMap_taken_push, List.append_nil] at htaken
      exact ⟨part, hleft, htaken⟩
  | case4 | case5 => exact ⟨[], rfl, flatMap_taken_push ..⟩
  | case6 most turns calls bytes hne ih =>
      obtain ⟨part, hleft, htaken⟩ := ih
      rw [flatMap_taken_push, List.append_assoc] at htaken
      refine ⟨bytes.take (most + 1) ++ part, ?_, htaken⟩
      rw [List.append_assoc, hleft, List.take_append_drop]

theorem push_takes (sink : Sink) (bytes : List UInt8) :
    ∃ part, part ++ (sink.push bytes).2.1 = bytes ∧ (sink.push bytes).1.taken = sink.taken ++ part :=
  offer_takes sink.turns sink.calls bytes

theorem taken_push (sink : Sink) (bytes : List UInt8) :
    (sink.push bytes).1.taken ++ (sink.push bytes).2.1 = sink.taken ++ bytes := by
  obtain ⟨part, hleft, htaken⟩ := sink.push_takes bytes
  rw [htaken, List.append_assoc, hleft]

theorem left_offer (turns : List Turn) (calls : Array Call) (bytes : List UInt8)
    (h : (offer turns calls bytes).halt? = none) : (offer turns calls bytes).left = [] := by
  fun_induction offer turns calls bytes with
  | case1 | case2 => rfl
  | case3 turns calls bytes hne ih => exact ih h
  | case4 | case5 => cases h
  | case6 most turns calls bytes hne ih => exact ih h

theorem left_push (sink : Sink) (bytes : List UInt8) (h : (sink.push bytes).2.2 = none) :
    (sink.push bytes).2.1 = [] :=
  left_offer sink.turns sink.calls bytes h

end Sink

end SegmentClient
