namespace SegmentClient

def socketBuffer : Nat := 256 * 1024

def maxBlock : Nat := socketBuffer - 1024

class Pacing (σ : Type) where
  noteAppend : σ → Int64 → Nat → σ
  noteAck : σ → Int64 → σ × Int64
  /-- Bytes of appends to hold back before they are sent; with 0 none is held back. -/
  blockSize : σ → Nat

namespace Pacing

inductive Call
  | append (eventNumber : Int64) (size : Nat)
  | ack (eventNumber : Int64) (outstanding : Int64)
deriving DecidableEq, Repr

structure Observed (σ : Type) where
  inner : σ
  calls : Array Call := #[]

instance {σ : Type} [Pacing σ] : Pacing (Observed σ) where
  noteAppend pacer eventNumber size :=
    ⟨noteAppend pacer.inner eventNumber size, pacer.calls.push (.append eventNumber size)⟩
  noteAck pacer eventNumber :=
    match noteAck pacer.inner eventNumber with
    | (inner, outstanding) => (⟨inner, pacer.calls.push (.ack eventNumber outstanding)⟩, outstanding)
  blockSize pacer := blockSize pacer.inner

/-- Block sizes given in advance: one for every append recorded, the first also before any, the last
also ever after. -/
structure Schedule where
  sizes : List Nat
  appends : Nat := 0

instance : Pacing Schedule where
  noteAppend schedule _ _ := { schedule with appends := schedule.appends + 1 }
  noteAck schedule _ := (schedule, 0)
  blockSize schedule :=
    (schedule.sizes[schedule.appends - 1]?).getD (schedule.sizes.getLastD 0)

end Pacing

structure MovingAverage where
  value : Float
  weight : Float
deriving Repr

def MovingAverage.add (average : MovingAverage) (sample : Float) : MovingAverage :=
  { average with value := average.value * (1.0 - average.weight) + sample * average.weight }

structure Adaptive where
  lastAppend : Int64 := 0
  lastAck : Int64 := 0
  eventSize : MovingAverage := ⟨1024.0, 0.1⟩
  outstanding : MovingAverage := ⟨2.0, 0.05⟩
deriving Repr

namespace Adaptive

/-- The differences of numbers here, in `noteAck` and in `blockSize` wrap around, as in a release
build; a build that checks its arithmetic stops at a difference that does not fit. -/
def noteAppend (pacer : Adaptive) (eventNumber : Int64) (size : Nat) : Adaptive :=
  { pacer with
    lastAppend := eventNumber
    eventSize := pacer.eventSize.add (Float.ofNat size)
    outstanding := pacer.outstanding.add (eventNumber - pacer.lastAck).toFloat }

/-- Answers with a difference of numbers, which wraps around. -/
def noteAck (pacer : Adaptive) (eventNumber : Int64) : Adaptive × Int64 :=
  let outstanding := pacer.lastAppend - eventNumber
  ({ pacer with
    lastAck := eventNumber
    outstanding := pacer.outstanding.add outstanding.toFloat }, outstanding)

/-- Nothing is held back while the difference of the last two numbers, wrapped around, is at most 1. -/
def blockSize (pacer : Adaptive) : Nat :=
  if pacer.lastAppend - pacer.lastAck ≤ 1 then 0
  else min (pacer.outstanding.value * pacer.eventSize.value).toUInt64.toNat maxBlock

instance : Pacing Adaptive := ⟨noteAppend, noteAck, blockSize⟩

theorem blockSize_le (pacer : Adaptive) : pacer.blockSize ≤ maxBlock := by
  unfold blockSize
  split
  · exact Nat.zero_le _
  · exact Nat.min_le_right _ _

end Adaptive

end SegmentClient
