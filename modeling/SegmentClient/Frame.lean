import SegmentClient.Command.Payload
import SegmentClient.Stream.Source
import SegmentClient.Stream.Sink

namespace SegmentClient

open Wire

def headerSize : Nat := 8

def maxPayload : Nat := 0x7FFFFF

inductive FrameFault
  | unknownCommand (code : Int32)
  | invalidLength (length : Int32)
  | unexpectedCommand (kind : CommandKind)
  | tooLarge (size : Nat)
  | payload (fault : PayloadFault)
  | stream (fault : StreamFault)
deriving DecidableEq, Repr

namespace FrameFault

/-- Whether the fault ends whoever reads on the spot, so that nobody hears of it. -/
def aborts : FrameFault → Bool
  | payload .oversized => true
  | _ => false

def message : FrameFault → String
  | unknownCommand code => s!"unknown wire command: {code.toInt}"
  | invalidLength length => s!"event of invalid length: {length.toInt}"
  | unexpectedCommand kind => s!"command {kind.name} is not a reply"
  | tooLarge size => s!"encoded command of {size} bytes exceeds the frame limit"
  | payload fault => s!"failed to decode message: {fault.message}"
  | stream fault => s!"Transport IO Error: {fault.message}"

def toStream : FrameFault → StreamFault
  | stream fault => fault
  | fault => ⟨.invalidData, fault.message⟩

end FrameFault

structure Frame where
  kind : CommandKind
  payload : List UInt8
deriving DecidableEq, Repr

def Request.frame (request : Request) : Frame := ⟨request.kind, request.payload⟩

def Append.frame (append : Append) : Frame := ⟨.appendBlockEnd, append.payload⟩

def Reply.frame (reply : Reply) : Frame := ⟨reply.kind, reply.payload⟩

namespace Frame

def header (frame : Frame) : List UInt8 :=
  BigEndian.encode 4 frame.kind.code.toBitVec.toNat ++ BigEndian.encode 4 frame.payload.length

def bytes (frame : Frame) : List UInt8 := frame.header ++ frame.payload

def size (frame : Frame) : Nat := headerSize + frame.payload.length

/-- Writes the header, then the payload, and returns the size of both; a frame over the limit is
refused before anything is written. -/
def write {ω : Type} [ByteSink ω] (frame : Frame) (out : ω) : Except FrameFault Nat × ω :=
  let length := frame.payload.length
  if maxPayload < length then (.error (.tooLarge length), out)
  else
    match ByteSink.writeAll out frame.header with
    | (.error fault, out) => (.error (.stream fault), out)
    | (.ok (), out) =>
      match ByteSink.writeAll out frame.payload with
      | (.error fault, out) => (.error (.stream fault), out)
      | (.ok (), out) => (.ok (headerSize + length), out)

def readHeader (header : List UInt8) : Except FrameFault (CommandKind × Nat) :=
  let code := Int32.ofBitVec (BitVec.ofNat 32 (BigEndian.decode (header.take 4)))
  let length := Int32.ofBitVec (BitVec.ofNat 32 (BigEndian.decode (header.drop 4)))
  match CommandKind.ofCode? code with
  | none => .error (.unknownCommand code)
  | some kind =>
    if 0 ≤ length.toInt ∧ length.toInt ≤ maxPayload then .ok (kind, length.toInt.toNat)
    else .error (.invalidLength length)

theorem length_header (frame : Frame) : frame.header.length = headerSize := by
  simp [header, headerSize]

theorem length_bytes (frame : Frame) : frame.bytes.length = frame.size := by
  simp [bytes, size, length_header]

end Frame

namespace Reply

/-- The reply in a payload of the given kind; bytes past the last field are ignored, so that newer
segment stores may add fields. -/
def decode (kind : CommandKind) (payload : List UInt8) : Except FrameFault Reply :=
  match build? kind with
  | none => .error (.unexpectedCommand kind)
  | some build =>
    match kind.layout.decode payload with
    | .error fault => .error (.payload fault)
    | .ok (values, _) => .ok (build values)

/-- Reads one frame and the reply in it. An unknown kind or a length out of bounds is refused when
the header has been read and nothing else. -/
def receive (source : Source) : Except FrameFault Reply × Source :=
  match source.fill headerSize with
  | (.error fault, source) => (.error (.stream fault), source)
  | (.ok header, source) =>
    match Frame.readHeader header with
    | .error fault => (.error fault, source)
    | .ok (kind, length) =>
      match source.fill length with
      | (.error fault, source) => (.error (.stream fault), source)
      | (.ok payload, source) => (decode kind payload, source)

theorem decode_payload (reply : Reply) (rest : List UInt8) (h : reply.InRange) :
    decode reply.kind (reply.payload ++ rest) = .ok reply := by
  have hvalues := reply.build?_values
  have hlayout := Layout.decode_encode reply.kind.layout reply.values rest h
  cases hbuild : build? reply.kind with
  | none => simp [hbuild] at hvalues
  | some build =>
    simp only [hbuild, Option.map_some, Option.some.injEq] at hvalues
    simp only [decode, hbuild, payload, hlayout, hvalues]

theorem payload_of_decode {kind : CommandKind} {payload : List UInt8} {reply : Reply}
    (h : decode kind payload = .ok reply) :
    kind = reply.kind ∧ reply.InRange ∧ ∃ more, payload = reply.payload ++ more := by
  unfold decode at h
  split at h
  · cases h
  · rename_i build hbuild
    split at h
    · cases h
    · rename_i values more hdecode
      cases h
      obtain ⟨hpayload, hrange⟩ := view_of_build? hbuild values
      refine ⟨(values_of_build? hbuild values).1.symm, ?_, more, ?_⟩
      · exact hrange.mpr (Layout.inRange_of_decode hdecode)
      · rw [hpayload, Layout.encode_of_decode hdecode]

theorem receive_size {source rest : Source} {reply : Reply}
    (h : receive source = (.ok reply, rest)) :
    Source.size rest.items + headerSize ≤ Source.size source.items := by
  unfold receive at h
  split at h
  · cases h
  · rename_i hheader
    split at h
    · cases h
    · split at h
      · cases h
      · rename_i hpayload
        obtain ⟨_, rfl⟩ := Prod.mk.inj h
        have hfirst := (Source.fill_ok hheader).2.2
        have hsecond := (Source.fill_ok hpayload).2.2
        omega

end Reply

/-- One attempt to read a reply: what came of it, whether a stop was asked for meanwhile, and the
source behind it. -/
structure Reading where
  outcome : Except FrameFault Reply
  stopped : Bool
  source : Source

namespace Source

def read (source : Source) : Reading :=
  match Reply.receive source with
  | (outcome, rest) => ⟨outcome, source.stops < rest.stops, rest⟩

theorem size_read {source rest : Source} {reply : Reply} {stopped : Bool}
    (h : source.read = ⟨.ok reply, stopped, rest⟩) : size rest.items < size source.items := by
  simp only [read, Reading.mk.injEq] at h
  have hsize := Reply.receive_size (Prod.ext h.1 h.2.2)
  unfold headerSize at hsize
  omega

def collect (before : List Reading) (source : Source) : List Reading :=
  match _h : Reply.receive source with
  | (.error fault, rest) => (⟨.error fault, source.stops < rest.stops, rest⟩ :: before).reverse
  | (.ok reply, rest) => collect (⟨.ok reply, source.stops < rest.stops, rest⟩ :: before) rest
termination_by size source.items
decreasing_by
  have := Reply.receive_size _h
  unfold headerSize at this
  omega

def readings (source : Source) : List Reading := collect [] source

theorem collect_of_error {source rest : Source} {fault : FrameFault} (before : List Reading)
    (h : Reply.receive source = (.error fault, rest)) :
    collect before source = (source.read :: before).reverse := by
  rw [collect, read]
  split
  · rename_i hread
    rw [hread]
  · rename_i hread
    cases h.symm.trans hread

theorem collect_of_ok {source rest : Source} {reply : Reply} (before : List Reading)
    (h : Reply.receive source = (.ok reply, rest)) :
    collect before source = collect (source.read :: before) rest := by
  rw [collect, read]
  split
  · rename_i hread
    cases h.symm.trans hread
  · rename_i hread
    cases h.symm.trans hread
    rw [h]

theorem collect_append (first second : List Reading) (source : Source) :
    collect (first ++ second) source = second.reverse ++ collect first source := by
  fun_induction collect first source with
  | case1 before source fault rest h =>
    rw [collect_of_error _ h, read, h]
    simp
  | case2 before source reply rest h ih =>
    rw [collect_of_ok _ h, ← List.cons_append, read, h]
    exact ih

theorem readings_of_error {source rest : Source} {fault : FrameFault}
    (h : Reply.receive source = (.error fault, rest)) : source.readings = [source.read] :=
  collect_of_error [] h

theorem readings_of_ok {source rest : Source} {reply : Reply}
    (h : Reply.receive source = (.ok reply, rest)) :
    source.readings = source.read :: rest.readings := by
  rw [readings, collect_of_ok [] h]
  exact collect_append [] [source.read] rest

def readTimes : Nat → Source → List Reading
  | 0, _ => []
  | count + 1, source => source.read :: readTimes count source.read.source

end Source

end SegmentClient
