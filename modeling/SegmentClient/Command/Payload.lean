import SegmentClient.Command

namespace SegmentClient

open Wire

def CommandKind.layout : CommandKind → Layout
  | .hello => [.int32, .int32]
  | .keepAlive => []
  | .setupAppend => [.int64, .writerId, .text, .text]
  | .appendSetup => [.int64, .text, .writerId, .int64]
  | .appendBlockEnd => [.writerId, .int64, .int32, .blob, .int64]
  | .dataAppended => [.int64, .writerId, .int64, .int64, .int64]
  | .wrongHost => [.int64, .text, .text, .text]
  | .segmentIsSealed => [.int64, .text, .text, .int64]
  | .noSuchSegment => [.int64, .text, .text, .int64]
  | .invalidEventNumber => [.writerId, .int64, .text]
  | .operationUnsupported => [.int64, .text, .text]

def Request.values : (request : Request) → request.kind.layout.Values
  | .hello r => (r.highVersion, r.lowVersion, ())
  | .keepAlive => ()
  | .setupAppend r => (r.requestId, r.writerId, r.segment, r.delegationToken, ())

def Append.values (append : Append) : CommandKind.appendBlockEnd.layout.Values :=
  (append.writerId, append.eventNumber, append.eventCount, append.data, append.requestId, ())

def Request.payload (request : Request) : List UInt8 :=
  request.kind.layout.encode request.values

def Append.payload (append : Append) : List UInt8 :=
  CommandKind.appendBlockEnd.layout.encode append.values

theorem Append.length_payload (append : Append) : append.payload.length = 44 + append.data.length := by
  simp only [payload, values, CommandKind.layout, Layout.encode, Field.encode, List.length_append,
    BigEndian.length_encode, List.length_nil]
  omega

namespace Reply

def values : (reply : Reply) → reply.kind.layout.Values
  | .hello r => (r.highVersion, r.lowVersion, ())
  | .keepAlive => ()
  | .appendSetup r => (r.requestId, r.segment, r.writerId, r.lastEventNumber, ())
  | .dataAppended r =>
    (r.requestId, r.writerId, r.eventNumber, r.previousEventNumber, r.currentSegmentWriteOffset, ())
  | .wrongHost r => (r.requestId, r.segment, r.correctHost, r.serverStackTrace, ())
  | .segmentIsSealed r => (r.requestId, r.segment, r.serverStackTrace, r.offset, ())
  | .noSuchSegment r => (r.requestId, r.segment, r.serverStackTrace, r.offset, ())
  | .invalidEventNumber r => (r.writerId, r.eventNumber, r.serverStackTrace, ())
  | .operationUnsupported r => (r.requestId, r.operationName, r.serverStackTrace, ())

def payload (reply : Reply) : List UInt8 := reply.kind.layout.encode reply.values

def InRange (reply : Reply) : Prop := reply.kind.layout.InRange reply.values

/-- How field values become a reply; kinds that only clients send have no reply. -/
def build? : (kind : CommandKind) → Option (kind.layout.Values → Reply)
  | .hello => some fun (high, low, ()) => .hello ⟨high, low⟩
  | .keepAlive => some fun () => .keepAlive
  | .setupAppend => none
  | .appendSetup => some fun (request, segment, writer, last, ()) =>
    .appendSetup ⟨request, segment, writer, last⟩
  | .appendBlockEnd => none
  | .dataAppended => some fun (request, writer, number, previous, offset, ()) =>
    .dataAppended ⟨request, writer, number, previous, offset⟩
  | .wrongHost => some fun (request, segment, host, trace, ()) =>
    .wrongHost ⟨request, segment, host, trace⟩
  | .segmentIsSealed => some fun (request, segment, trace, offset, ()) =>
    .segmentIsSealed ⟨request, segment, trace, offset⟩
  | .noSuchSegment => some fun (request, segment, trace, offset, ()) =>
    .noSuchSegment ⟨request, segment, trace, offset⟩
  | .invalidEventNumber => some fun (writer, number, trace, ()) =>
    .invalidEventNumber ⟨writer, number, trace⟩
  | .operationUnsupported => some fun (request, operation, trace, ()) =>
    .operationUnsupported ⟨request, operation, trace⟩

theorem build?_values (reply : Reply) :
    (build? reply.kind).map (· reply.values) = some reply := by
  cases reply <;> rfl

theorem values_of_build? {kind : CommandKind} {build : kind.layout.Values → Reply}
    (h : build? kind = some build) (values : kind.layout.Values) :
    (build values).kind = kind ∧ HEq (build values).values values := by
  cases kind <;> cases h <;> exact ⟨rfl, HEq.rfl⟩

theorem view_of_build? {kind : CommandKind} {build : kind.layout.Values → Reply}
    (h : build? kind = some build) (values : kind.layout.Values) :
    (build values).payload = kind.layout.encode values ∧
      ((build values).InRange ↔ kind.layout.InRange values) := by
  obtain ⟨hkind, hvalues⟩ := values_of_build? h values
  rw [payload, InRange]
  generalize build values = reply at hkind hvalues
  subst hkind
  rw [eq_of_heq hvalues]
  exact ⟨rfl, Iff.rfl⟩

theorem build?_isSome (kind : CommandKind) : (build? kind).isSome = kind.isReply := by
  cases kind <;> rfl

end Reply

end SegmentClient
