import SegmentClient.Wire.Layout

namespace SegmentClient

open Wire

def wireVersion : Int32 := 15

def oldestVersion : Int32 := 5

inductive CommandKind
  | hello
  | keepAlive
  | setupAppend
  | appendSetup
  | appendBlockEnd
  | dataAppended
  | wrongHost
  | segmentIsSealed
  | noSuchSegment
  | invalidEventNumber
  | operationUnsupported
deriving DecidableEq, Repr

namespace CommandKind

def all : List CommandKind :=
  [hello, keepAlive, setupAppend, appendSetup, appendBlockEnd, dataAppended, wrongHost,
    segmentIsSealed, noSuchSegment, invalidEventNumber, operationUnsupported]

def code : CommandKind → Int32
  | hello => -127
  | keepAlive => 100
  | setupAppend => 1
  | appendSetup => 2
  | appendBlockEnd => 4
  | dataAppended => 7
  | wrongHost => 50
  | segmentIsSealed => 51
  | noSuchSegment => 53
  | invalidEventNumber => 55
  | operationUnsupported => 57

def ofCode? (code : Int32) : Option CommandKind := all.find? (·.code = code)

def name : CommandKind → String
  | hello => "Hello"
  | keepAlive => "KeepAlive"
  | setupAppend => "SetupAppend"
  | appendSetup => "AppendSetup"
  | appendBlockEnd => "AppendBlockEnd"
  | dataAppended => "DataAppended"
  | wrongHost => "WrongHost"
  | segmentIsSealed => "SegmentIsSealed"
  | noSuchSegment => "NoSuchSegment"
  | invalidEventNumber => "InvalidEventNumber"
  | operationUnsupported => "OperationUnsupported"

def ofName? (name : String) : Option CommandKind := all.find? (·.name = name)

/-- Whether a segment store may send a command of this kind to a client. -/
def isReply : CommandKind → Bool
  | setupAppend | appendBlockEnd => false
  | _ => true

theorem ofCode?_code (kind : CommandKind) : ofCode? kind.code = some kind := by
  cases kind <;> decide

theorem code_of_ofCode? {code : Int32} {kind : CommandKind} (h : ofCode? code = some kind) :
    kind.code = code := by
  simpa using List.find?_some h

end CommandKind

structure Hello where
  highVersion : Int32 := wireVersion
  lowVersion : Int32 := oldestVersion
deriving DecidableEq, Repr

structure SetupAppend where
  requestId : Int64
  writerId : WriterId
  segment : String
  delegationToken : String
deriving DecidableEq, Repr

inductive Request
  | hello (versions : Hello)
  | keepAlive
  | setupAppend (setup : SetupAppend)
deriving DecidableEq, Repr

structure Append where
  writerId : WriterId
  eventNumber : Int64
  eventCount : Int32
  data : List UInt8
  requestId : Int64
deriving DecidableEq, Repr

def Append.single (writerId : WriterId) (eventNumber : Int64) (data : List UInt8) : Append :=
  ⟨writerId, eventNumber, 1, data, eventNumber⟩

structure AppendSetup where
  requestId : Int64
  segment : String
  writerId : WriterId
  lastEventNumber : Int64
deriving DecidableEq, Repr

structure DataAppended where
  requestId : Int64
  writerId : WriterId
  eventNumber : Int64
  previousEventNumber : Int64
  currentSegmentWriteOffset : Int64
deriving DecidableEq, Repr

structure WrongHost where
  requestId : Int64
  segment : String
  correctHost : String
  serverStackTrace : String
deriving DecidableEq, Repr

structure SegmentRefusal where
  requestId : Int64
  segment : String
  serverStackTrace : String
  offset : Int64
deriving DecidableEq, Repr

structure InvalidEventNumber where
  writerId : WriterId
  eventNumber : Int64
  serverStackTrace : String
deriving DecidableEq, Repr

structure OperationUnsupported where
  requestId : Int64
  operationName : String
  serverStackTrace : String
deriving DecidableEq, Repr

inductive Reply
  | hello (versions : Hello)
  | keepAlive
  | appendSetup (setup : AppendSetup)
  | dataAppended (ack : DataAppended)
  | wrongHost (refusal : WrongHost)
  | segmentIsSealed (refusal : SegmentRefusal)
  | noSuchSegment (refusal : SegmentRefusal)
  | invalidEventNumber (refusal : InvalidEventNumber)
  | operationUnsupported (refusal : OperationUnsupported)
deriving DecidableEq, Repr

def Request.kind : Request → CommandKind
  | .hello _ => .hello
  | .keepAlive => .keepAlive
  | .setupAppend _ => .setupAppend

namespace Reply

def kind : Reply → CommandKind
  | hello _ => .hello
  | keepAlive => .keepAlive
  | appendSetup _ => .appendSetup
  | dataAppended _ => .dataAppended
  | wrongHost _ => .wrongHost
  | segmentIsSealed _ => .segmentIsSealed
  | noSuchSegment _ => .noSuchSegment
  | invalidEventNumber _ => .invalidEventNumber
  | operationUnsupported _ => .operationUnsupported

def requestId? : Reply → Option Int64
  | hello _ | keepAlive | invalidEventNumber _ => none
  | appendSetup r => some r.requestId
  | dataAppended r => some r.requestId
  | wrongHost r => some r.requestId
  | segmentIsSealed r | noSuchSegment r => some r.requestId
  | operationUnsupported r => some r.requestId

end Reply

/-- The acknowledgement that a segment store sends once `append` is durable: its events follow the
one that precedes the first of them. -/
def Append.ack (append : Append) : DataAppended where
  requestId := append.requestId
  writerId := append.writerId
  eventNumber := append.eventNumber
  previousEventNumber := append.eventNumber - append.eventCount.toInt64
  currentSegmentWriteOffset := 0

end SegmentClient
