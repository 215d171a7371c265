import SegmentClient.Stream.Sink

namespace SegmentClient

/-- A buffer in front of a sink. Small writes are held back; a write that does not fit drains the
buffer first, and one as large as the whole buffer goes past it. -/
structure BufferedSink (capacity : Nat) where
  sink : Sink := {}
  held : Array UInt8 := #[]
deriving Repr

namespace BufferedSink

variable {capacity : Nat}

def content (out : BufferedSink capacity) : List UInt8 := out.sink.taken ++ out.held.toList

def hold (out : BufferedSink capacity) (bytes : List UInt8) : BufferedSink capacity :=
  { out with held := out.held ++ bytes }

/-- Offers all that is held to the sink; what a fault leaves over stays held. -/
def drain (out : BufferedSink capacity) : Except StreamFault Unit × BufferedSink capacity :=
  match out.sink.push out.held.toList with
  | (sink, _, none) => (.ok (), { sink, held := #[] })
  | (sink, left, some .stalled) => (.error .drainStalled, { sink, held := left.toArray })
  | (sink, left, some (.failed kind)) => (.error (.ofKind kind), { sink, held := left.toArray })

def place (out : BufferedSink capacity) (bytes : List UInt8) :
    Except StreamFault Unit × BufferedSink capacity :=
  if capacity ≤ bytes.length then
    match out.sink.writeAll bytes with
    | (result, sink) => (result, { out with sink })
  else (.ok (), out.hold bytes)

def writeAll (out : BufferedSink capacity) (bytes : List UInt8) :
    Except StreamFault Unit × BufferedSink capacity :=
  let room := capacity - out.held.size
  let length := bytes.length
  if length < room then (.ok (), out.hold bytes)
  else if room < length then
    match out.drain with
    | (.error fault, out) => (.error fault, out)
    | (.ok (), out) => out.place bytes
  else out.place bytes

def flush (out : BufferedSink capacity) : Except StreamFault Unit × BufferedSink capacity :=
  match out.drain with
  | (.error fault, out) => (.error fault, out)
  | (.ok (), out) =>
    match out.sink.flush with
    | (result, sink) => (result, { out with sink })

instance : ByteSink (BufferedSink capacity) := ⟨writeAll⟩

@[simp] theorem toList_held_hold (out : BufferedSink capacity) (bytes : List UInt8) :
    (out.hold bytes).held.toList = out.held.toList ++ bytes :=
  Array.toList_appendList ..

@[simp] theorem size_held_hold (out : BufferedSink capacity) (bytes : List UInt8) :
    (out.hold bytes).held.size = out.held.size + bytes.length := by
  rw [← Array.length_toList, toList_held_hold, List.length_append, Array.length_toList]

@[simp] theorem content_hold (out : BufferedSink capacity) (bytes : List UInt8) :
    (out.hold bytes).content = out.content ++ bytes := by
  rw [content, content, toList_held_hold, List.append_assoc]
  rfl

theorem content_drain (out : BufferedSink capacity) : out.drain.2.content = out.content := by
  have htaken := out.sink.taken_push out.held.toList
  have hleft := out.sink.left_push out.held.toList
  unfold drain
  split
  · rename_i hpush
    rw [hpush] at htaken hleft
    rw [hleft rfl, List.append_nil] at htaken
    exact (List.append_nil _).trans htaken
  · rename_i hpush
    rw [hpush] at htaken
    exact htaken
  · rename_i hpush
    rw [hpush] at htaken
    exact htaken

end BufferedSink

end SegmentClient
