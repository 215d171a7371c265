namespace SegmentClient

inductive StreamFault.Kind
  | notFound
  | permissionDenied
  | connectionRefused
  | connectionReset
  | connectionAborted
  | networkUnreachable
  | notConnected
  | addrInUse
  | addrNotAvailable
  | brokenPipe
  | alreadyExists
  | wouldBlock
  | invalidInput
  | invalidData
  | timedOut
  | writeZero
  | interrupted
  | unexpectedEof
  | outOfMemory
  | unsupported
  | other
deriving DecidableEq, Repr

namespace StreamFault.Kind

def all : List Kind :=
  [notFound, permissionDenied, connectionRefused, connectionReset, connectionAborted,
    networkUnreachable, notConnected, addrInUse, addrNotAvailable, brokenPipe, alreadyExists,
    wouldBlock, invalidInput, invalidData, timedOut, writeZero, interrupted, unexpectedEof,
    outOfMemory, unsupported, other]

def name : Kind → String
  | notFound => "NotFound"
  | permissionDenied => "PermissionDenied"
  | connectionRefused => "ConnectionRefused"
  | connectionReset => "ConnectionReset"
  | connectionAborted => "ConnectionAborted"
  | networkUnreachable => "NetworkUnreachable"
  | notConnected => "NotConnected"
  | addrInUse => "AddrInUse"
  | addrNotAvailable => "AddrNotAvailable"
  | brokenPipe => "BrokenPipe"
  | alreadyExists => "AlreadyExists"
  | wouldBlock => "WouldBlock"
  | invalidInput => "InvalidInput"
  | invalidData => "InvalidData"
  | timedOut => "TimedOut"
  | writeZero => "WriteZero"
  | interrupted => "Interrupted"
  | unexpectedEof => "UnexpectedEof"
  | outOfMemory => "OutOfMemory"
  | unsupported => "Unsupported"
  | other => "Other"

def text : Kind → String
  | notFound => "entity not found"
  | permissionDenied => "permission denied"
  | connectionRefused => "connection refused"
  | connectionReset => "connection reset"
  | connectionAborted => "connection aborted"
  | networkUnreachable => "network unreachable"
  | notConnected => "not connected"
  | addrInUse => "address in use"
  | addrNotAvailable => "address not available"
  | brokenPipe => "broken pipe"
  | alreadyExists => "entity already exists"
  | wouldBlock => "operation would block"
  | invalidInput => "invalid input parameter"
  | invalidData => "invalid data"
  | timedOut => "timed out"
  | writeZero => "write zero"
  | interrupted => "operation interrupted"
  | unexpectedEof => "unexpected end of file"
  | outOfMemory => "out of memory"
  | unsupported => "unsupported"
  | other => "other error"

def ofName? (name : String) : Option Kind := all.find? (·.name = name)

end StreamFault.Kind

structure StreamFault where
  kind : StreamFault.Kind
  message : String
deriving DecidableEq, Repr

namespace StreamFault

def ofKind (kind : Kind) : StreamFault := ⟨kind, kind.text⟩

def endOfSource : StreamFault := ⟨.unexpectedEof, "failed to fill whole buffer"⟩

def sinkStalled : StreamFault := ⟨.writeZero, "failed to write whole buffer"⟩

def drainStalled : StreamFault := ⟨.writeZero, "failed to write the buffered data"⟩

end StreamFault

end SegmentClient
