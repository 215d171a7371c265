import SegmentClient.Frame
import SegmentClient.Pacing
import SegmentClient.Stream.Buffered

namespace SegmentClient

class CommandWriter (ω : Type) where
  putRequest : ω → Request → Except FrameFault Unit × ω
  putAppend : ω → Append → Except FrameFault Unit × ω
  flush : ω → Except FrameFault Unit × ω

/-- Commands on their way through a buffer of one block; `pending` counts the bytes of the appends
written since the last flush. -/
structure Outbox (σ : Type) where
  out : BufferedSink maxBlock := {}
  pacer : σ
  pending : Nat := 0

namespace Outbox

variable {σ : Type}

def flush (box : Outbox σ) : Except FrameFault Unit × Outbox σ :=
  match box.out.flush with
  | (.error fault, out) => (.error (.stream fault), { box with out, pending := 0 })
  | (.ok (), out) => (.ok (), { box with out, pending := 0 })

def putRequest (box : Outbox σ) (request : Request) : Except FrameFault Unit × Outbox σ :=
  match request.frame.write box.out with
  | (.error fault, out) => (.error fault, { box with out })
  | (.ok _, out) => flush { box with out }

/-- Writes an append, tells the pacer of it, and flushes if the pacer's block is full. -/
def putAppend [Pacing σ] (box : Outbox σ) (append : Append) :
    Except FrameFault Unit × Outbox σ :=
  match append.frame.write box.out with
  | (.error fault, out) => (.error fault, { box with out })
  | (.ok size, out) =>
    let pacer := Pacing.noteAppend box.pacer append.eventNumber size
    let pending := box.pending + size
    if Pacing.blockSize pacer ≤ pending then flush { out, pacer, pending }
    else (.ok (), { out, pacer, pending })

instance [Pacing σ] : CommandWriter (Outbox σ) := ⟨putRequest, putAppend, flush⟩

def noteAck [Pacing σ] (box : Outbox σ) (eventNumber : Int64) : Int64 × Outbox σ :=
  match Pacing.noteAck box.pacer eventNumber with
  | (pacer, outstanding) => (outstanding, { box with pacer })

theorem pending_flush (box : Outbox σ) : box.flush.2.pending = 0 := by
  unfold flush
  split <;> rfl

end Outbox

end SegmentClient
