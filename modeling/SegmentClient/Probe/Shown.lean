import SegmentClient.Connection.Dialing
import SegmentClient.Command

namespace SegmentClient.Probe

def braced (name : String) (fields : List (String × String)) : String :=
  name ++ " \x7b " ++ String.intercalate ", " (fields.map fun (key, value) => key ++ ": " ++ value)
    ++ " \x7d"

def hexDigits (n : Nat) : List Char := Nat.toDigits 16 n

def quotedChar (c : Char) : String :=
  match c with
  | '\x22' => "\\\x22"
  | '\x5c' => "\\\\"
  | '\n' => "\\n"
  | '\t' => "\\t"
  | '\r' => "\\r"
  | '\x00' => "\\0"
  | c =>
    if c.toNat < 32 ∨ 127 ≤ c.toNat ∧ c.toNat < 160 then
      "\\u\x7b" ++ String.ofList (hexDigits c.toNat) ++ "\x7d"
    else c.toString

def quoted (text : String) : String :=
  "\x22" ++ String.join (text.toList.map quotedChar) ++ "\x22"

def showRefusal (name : String) (refusal : SegmentRefusal) : String :=
  braced name
    [("request_id", toString refusal.requestId.toInt), ("segment", quoted refusal.segment),
      ("server_stack_trace", quoted refusal.serverStackTrace),
      ("offset", toString refusal.offset.toInt)]

def showRecord : Reply → String
  | .hello r =>
    braced "Hello" [("high_version", toString r.highVersion.toInt),
      ("low_version", toString r.lowVersion.toInt)]
  | .keepAlive => "KeepAlive"
  | .appendSetup r =>
    braced "AppendSetup" [("request_id", toString r.requestId.toInt), ("segment", quoted r.segment),
      ("writer_id", toString r.writerId.toNat),
      ("last_event_number", toString r.lastEventNumber.toInt)]
  | .dataAppended r =>
    braced "DataAppended" [("request_id", toString r.requestId.toInt),
      ("writer_id", toString r.writerId.toNat), ("event_number", toString r.eventNumber.toInt),
      ("previous_event_number", toString r.previousEventNumber.toInt),
      ("current_segment_write_offset", toString r.currentSegmentWriteOffset.toInt)]
  | .wrongHost r =>
    braced "WrongHost" [("request_id", toString r.requestId.toInt), ("segment", quoted r.segment),
      ("correct_host", quoted r.correctHost), ("server_stack_trace", quoted r.serverStackTrace)]
  | .segmentIsSealed r => showRefusal "SegmentIsSealed" r
  | .noSuchSegment r => showRefusal "NoSuchSegment" r
  | .invalidEventNumber r =>
    braced "InvalidEventNumber" [("writer_id", toString r.writerId.toNat),
      ("event_number", toString r.eventNumber.toInt),
      ("server_stack_trace", quoted r.serverStackTrace)]
  | .operationUnsupported r =>
    braced "OperationUnsupported" [("request_id", toString r.requestId.toInt),
      ("operation_name", quoted r.operationName),
      ("server_stack_trace", quoted r.serverStackTrace)]

def showReply (reply : Reply) : String := s!"{reply.kind.name}({showRecord reply})"

def showStreamFault (fault : StreamFault) : String :=
  braced "Custom" [("kind", fault.kind.name), ("error", quoted fault.message)]

def showSystemFault (fault : SystemFault) : String :=
  braced "Os" [("code", toString fault.code), ("kind", fault.kind.name),
    ("message", quoted fault.text)]

def showTrustStoreFault : TrustStore.Fault → String
  | .missingFile => "Io(" ++ showSystemFault ⟨2, .notFound, "No such file or directory"⟩ ++ ")"
  | .illegalSectionStart line => braced "IllegalSectionStart" [("line", TrustStore.showBytes line)]
  | .missingSectionEnd label =>
    braced "MissingSectionEnd" [("end_marker", TrustStore.showBytes label)]
  | .badBase64 fault => "Base64Decode(" ++ quoted fault.message ++ ")"

def showConnectionFault : ConnectionFault → String
  | .closed => "Closed"
  | .failed fault => s!"Failed({showStreamFault fault})"
  | .system fault => s!"Failed({showSystemFault fault})"
  | .handshake fault => s!"Handshake({showStreamFault fault})"
  | .badCertificate => "Tls(InvalidCertificate(BadEncoding))"
  | .trustStore path fault =>
    braced "TrustStore" [("path", quoted path), ("source", showTrustStoreFault fault)]
  | .noCertificates => "Verifier(NoRootAnchors)"

end SegmentClient.Probe
