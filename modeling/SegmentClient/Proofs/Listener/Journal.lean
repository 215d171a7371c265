import SegmentClient.Proofs.Listener.Loop

namespace SegmentClient.Listener

variable {σ : Type} [Pacing σ]

def Event.answers : Event → Bool
  | .processed _ | .failed _ => true
  | .acked .. | .dropped | .tornDown => false

end SegmentClient.Listener
