import SegmentClient.Proofs.Source.Outlook
import Mathlib.Algebra.Ring.Nat

namespace SegmentClient.Source

/-- What stands behind the first fault that is not an interruption. -/
def beyond : List Item → List Item
  | [] => []
  | .chunk _ :: items => beyond items
  | .stop :: items => beyond items
  | .fault kind :: items => if kind = .interrupted then beyond items else items

end SegmentClient.Source
