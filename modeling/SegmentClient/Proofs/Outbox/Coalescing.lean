import SegmentClient.Proofs.Outbox.Pending
import SegmentClient.Proofs.Sink.Offers
import Mathlib.Data.List.TakeDrop

namespace SegmentClient

namespace Sink

/-- The next write call takes all of the bytes if it is offered them. -/
def Accepts (sink : Sink) (bytes : List UInt8) : Prop := (answer sink.turns.head? bytes).taken = bytes

theorem accepts_of_turns_nil {sink : Sink} (h : sink.turns = []) (bytes : List UInt8) : sink.Accepts bytes := by
  rw [Accepts, h]
  rfl

def oneCall (bytes : List UInt8) : List Call := if bytes = [] then [] else [⟨bytes.length, bytes⟩]

theorem push_of_accepts {sink : Sink} {bytes : List UInt8} (h : sink.Accepts bytes) :
    sink.push bytes = (sink.past (oneCall bytes), [], none) := by
  obtain ⟨turns, flushTurns, calls, flushedAt⟩ := sink
  cases bytes with
  | nil => simp [push, offer, past, oneCall]
  | cons byte bytes =>
      cases turns with
      | nil => simp [push, offer, past, oneCall]
      | cons turn turns =>
          cases turn with
          | fail kind => cases h
          | take most =>
              cases most with
              | zero => cases h
              | succ most =>
                  have htake : (byte :: bytes).take (most + 1) = byte :: bytes := h
                  have hdrop := List.drop_eq_nil_of_le ((List.take_eq_self_iff _).mp htake)
                  simp [push, offer, past, oneCall, htake, hdrop]

theorem calls_flush (sink : Sink) : sink.flush.2.calls = sink.calls := by
  rw [flush]
  split <;> rfl

end Sink

namespace BufferedSink

variable {capacity : Nat} {out : BufferedSink capacity}

@[simp] theorem hold_nil (out : BufferedSink capacity) : out.hold [] = out := by
  simp [hold]

@[simp] theorem hold_hold (out : BufferedSink capacity) (first second : List UInt8) :
    (out.hold first).hold second = out.hold (first ++ second) := by
  have hheld : out.held ++ first ++ second = out.held ++ (first ++ second) := by
    apply Array.toList_inj.mp
    simp
  exact congrArg (BufferedSink.mk out.sink) hheld

theorem writeAll_of_room {bytes : List UInt8} (hroom : out.held.size + bytes.length ≤ capacity)
    (hsmall : bytes.length < capacity) : out.writeAll bytes = (.ok (), out.hold bytes) := by
  simp only [writeAll]
  split
  · rfl
  · rw [if_neg (by omega), place, if_neg (by omega)]

theorem flush_of_accepts (out : BufferedSink capacity) (h : out.sink.Accepts out.held.toList) :
    let sent := out.sink.past (Sink.oneCall out.held.toList)
    out.flush = (sent.flush.1, { sink := sent.flush.2, held := #[] }) := by
  intro sent
  have hdrain : out.drain = (.ok (), { sink := sent, held := #[] }) := by
    rw [drain, Sink.push_of_accepts h]
  rw [flush, hdrain]

end BufferedSink

theorem Frame.write_of_room {capacity : Nat} {frame : Frame} {out : BufferedSink capacity}
    (hfits : frame.fits = true) (hcapacity : headerSize < capacity)
    (hroom : out.held.size + frame.size ≤ capacity) :
    frame.write out = (.ok frame.size, out.hold frame.bytes) := by
  have hheader := frame.length_header
  rw [size] at hroom
  have hfirst : out.writeAll frame.header = (.ok (), out.hold frame.header) :=
    BufferedSink.writeAll_of_room (by omega) (by omega)
  have hsecond : (out.hold frame.header).writeAll frame.payload = (.ok (), out.hold frame.bytes) := by
    rw [bytes, ← BufferedSink.hold_hold]
    apply BufferedSink.writeAll_of_room
    · rw [BufferedSink.size_held_hold]
      omega
    · simp only [headerSize] at hroom
      omega
  rw [write, if_neg (Nat.not_lt.mpr (of_decide_eq_true hfits))]
  simp only [ByteSink.writeAll, hfirst, hsecond, size]

namespace Outbox

open Operation

variable {σ : Type}

theorem result_flush (box : Outbox σ) : box.flush.1 = box.out.flush.1.mapError .stream := by
  rcases hflush : box.out.flush with ⟨fault | _, out⟩ <;> simp only [flush, hflush] <;> rfl

theorem out_flush (box : Outbox σ) : box.flush.2.out = box.out.flush.2 := by
  rcases hflush : box.out.flush with ⟨fault | _, out⟩ <;> simp only [flush, hflush]

variable [Pacing σ]

theorem Operation.perform_of_room (op : Operation) {box : Outbox σ}
    (hroom : box.out.held.size + op.bytes.length ≤ maxBlock) :
    (¬ Due box op → (op.perform box).2.out = box.out.hold op.bytes) ∧
    (Due box op → (op.perform box).1 = (box.out.hold op.bytes).flush.1.mapError .stream ∧
      (op.perform box).2.out = (box.out.hold op.bytes).flush.2) := by
  obtain ⟨frame, hframe, hfits⟩ | hfits := op.refused_or_fits
  · obtain ⟨hperform, _, _, hquiet⟩ := refused_of_not_fits hframe hfits box
    rw [hperform, bytes_of_refused hframe (Frame.fits_eq_false_iff.mp hfits), BufferedSink.hold_nil]
    exact ⟨fun _ => rfl, fun hdue => absurd hdue hquiet⟩
  · have hwrite : ∀ frame, op.frame? = some frame →
        frame.write box.out = (.ok frame.size, box.out.hold op.bytes) := by
      intro frame hframe
      rw [bytes_of_frame hframe (hfits frame hframe)] at hroom ⊢
      rw [frame.length_bytes] at hroom
      exact Frame.write_of_room (hfits frame hframe) (by decide) hroom
    cases op with
    | request r =>
        rw [perform, putRequest_of_write (hwrite r.frame rfl)]
        exact ⟨fun hquiet => (hquiet (.request (hfits r.frame rfl))).elim,
          fun _ => ⟨result_flush _, out_flush _⟩⟩
    | append a =>
        have hdue : Due box (append a) ↔
            Pacing.blockSize (Pacing.noteAppend box.pacer a.eventNumber a.frame.size) ≤
              box.pending + a.frame.size := by
          refine ⟨?_, .append (hfits a.frame rfl)⟩
          rintro (_ | _ | ⟨_, hfull⟩)
          exact hfull
        rw [hdue, perform, putAppend, hwrite a.frame rfl]
        dsimp only
        constructor
        · intro hblock
          rw [if_neg hblock]
        · intro hblock
          rw [if_pos hblock]
          exact ⟨result_flush _, out_flush _⟩
    | flush =>
        have hnone : Operation.flush.bytes = [] := rfl
        rw [perform, hnone, BufferedSink.hold_nil]
        exact ⟨fun hquiet => (hquiet .flush).elim, fun _ => ⟨box.result_flush, box.out_flush⟩⟩
    | ack n =>
        have hnone : (ack n).bytes = [] := rfl
        rw [hnone, BufferedSink.hold_nil]
        exact ⟨fun _ => rfl, by rintro ⟨⟩⟩

def HoldsBack : List Operation → Outbox σ → Prop
  | [], _ => True
  | op :: ops, box => ¬ Due box op ∧ HoldsBack ops (op.perform box).2

theorem out_run_of_holdsBack (ops : List Operation) {box : Outbox σ} (h : HoldsBack ops box)
    (hroom : box.out.held.size + (ops.flatMap bytes).length ≤ maxBlock) :
    (run ops box).2.out = box.out.hold (ops.flatMap bytes) := by
  induction ops generalizing box with
  | nil => exact box.out.hold_nil.symm
  | cons op ops ih =>
      -- The bytes of the first operation are held when the others are tried: what follows goes behind them.
      obtain ⟨hquiet, hrest⟩ := h
      rw [List.flatMap_cons, List.length_append] at hroom
      have hop := (op.perform_of_room (by omega)).1 hquiet
      have hops := ih hrest (by rw [hop, BufferedSink.size_held_hold]; omega)
      rw [hop, BufferedSink.hold_hold, ← List.flatMap_cons] at hops
      exact hops

/-- Operations that call for no flush, and one that does, have been given to an outbox that held nothing. If
their bytes together fit the buffer, the sink has seen nothing until the flush, which makes one call with
all of the bytes, or none if there are none, and then flushes the sink, whose answer is the result. -/
theorem coalesced_run (box : Outbox σ) (before : List Operation) (op : Operation) :
    let bytes := (before ++ [op]).flatMap Operation.bytes
    let here := (run before box).2
    box.out.held = #[] → HoldsBack before box → Due here op → bytes.length ≤ maxBlock →
      box.out.sink.Accepts bytes →
    let calls : List Sink.Call := if bytes = [] then [] else [⟨bytes.length, bytes⟩]
    let sent := box.out.sink.past calls
    let result := (op.perform here).1
    let after := (op.perform here).2
    here.out.sink = box.out.sink ∧ here.out.held.toList = before.flatMap Operation.bytes ∧
    after.out.sink = sent.flush.2 ∧ after.out.held = #[] ∧ result = sent.flush.1.mapError .stream ∧
    after.out.sink.calls = box.out.sink.calls ++ calls.toArray ∧
    after.out.sink.flushedAt = box.out.sink.flushedAt.push after.out.sink.calls.size ∧
    after.out.sink.flushes = box.out.sink.flushes + 1 := by
  intro bytes here hempty hquiet hdue hsize hsink calls sent result after
  have hbytes : bytes = before.flatMap Operation.bytes ++ op.bytes := by simp [bytes]
  have hnone : box.out.held.size = 0 := by rw [hempty]; rfl
  have hlength := congrArg List.length hbytes
  rw [List.length_append] at hlength
  have hhere : here.out = box.out.hold (before.flatMap Operation.bytes) :=
    out_run_of_holdsBack before hquiet (by omega)
  have hheld : here.out.held.toList = before.flatMap Operation.bytes := by
    rw [hhere, BufferedSink.toList_held_hold, hempty, List.nil_append]
  have hgathered : (here.out.hold op.bytes).held.toList = bytes := by
    rw [BufferedSink.toList_held_hold, hheld, hbytes]
  have hroom : here.out.held.size + op.bytes.length ≤ maxBlock := by
    rw [hhere, BufferedSink.size_held_hold]
    omega
  have hflush := (here.out.hold op.bytes).flush_of_accepts
  have hsame : (here.out.hold op.bytes).sink = box.out.sink := by rw [hhere]; rfl
  rw [hgathered, hsame] at hflush
  have hlast := (op.perform_of_room hroom).2 hdue
  rw [hflush hsink] at hlast
  obtain ⟨hresult, hafter⟩ := hlast
  have hlastSink : after.out.sink = sent.flush.2 := congrArg (·.sink) hafter
  have hcalls : after.out.sink.calls = sent.calls := (congrArg Sink.calls hlastSink).trans sent.calls_flush
  refine ⟨by rw [hhere]; rfl, hheld, hlastSink, congrArg (·.held) hafter, hresult, hcalls, ?_, ?_⟩
  · rw [hcalls, hlastSink, sent.flushedAt_flush]
    rfl
  · rw [hlastSink, sent.flushes_flush]
    rfl

theorem coalesced_run_full :
    let a := Append.single 1 1 (List.replicate 261060 0)
    let box : Outbox Pacing.Schedule :=
      { out := { sink := { flushTurns := [some .timedOut] } }, pacer := { sizes := [300000] } }
    let before := [.append a]
    let op := .request .keepAlive
    let bytes := (before ++ [op]).flatMap Operation.bytes
    (box.out.held = #[] ∧ HoldsBack before box ∧ Due (run before box).2 op ∧ bytes.length = maxBlock ∧
      box.out.sink.Accepts bytes) ∧
    (run before box).2.out.sink = box.out.sink ∧
    (op.perform (run before box).2).1 = .error (.stream (.ofKind .timedOut)) ∧
    (op.perform (run before box).2).2.out.sink.calls = #[⟨maxBlock, bytes⟩] ∧
    (op.perform (run before box).2).2.out.sink.flushedAt = #[1] := by
  intro a
  have hdata : a.data.length = 261060 := List.length_replicate
  clear_value a
  intro box before op bytes
  have hpayload : a.frame.payload.length = 261104 := by
    rw [Append.frame, a.length_payload, hdata]
  have hfits : a.frame.fits = true := decide_eq_true (by rw [hpayload]; decide)
  have hsize : a.frame.size = 261112 := by rw [Frame.size, hpayload]; rfl
  have happend : (append a).bytes = a.frame.bytes := bytes_of_frame rfl hfits
  have hquiet : HoldsBack before box := by
    refine ⟨?_, trivial⟩
    rintro (_ | _ | ⟨_, hblock⟩)
    have hblockSize : Pacing.blockSize (Pacing.noteAppend box.pacer a.eventNumber a.frame.size) = 300000 := rfl
    have hpending : box.pending = 0 := rfl
    omega
  have hdue : Due (run before box).2 op := .request (by decide)
  have hlength : bytes.length = maxBlock := by
    have hbytes : bytes = a.frame.bytes ++ Request.keepAlive.frame.bytes := by
      simp only [bytes, before, op, List.cons_append, List.nil_append, List.flatMap_cons, List.flatMap_nil,
        List.append_nil, happend]
      rfl
    rw [hbytes, List.length_append, a.frame.length_bytes, hsize]
    rfl
  have hsink : box.out.sink.Accepts bytes := Sink.accepts_of_turns_nil rfl bytes
  obtain ⟨hhere, _, _, _, hresult, hcalls, hflushedAt, _⟩ :=
    coalesced_run box before op rfl hquiet hdue (Nat.le_of_eq hlength) hsink
  have hne : bytes ≠ [] := List.ne_nil_of_length_pos (by rw [hlength]; decide)
  have hone : (op.perform (run before box).2).2.out.sink.calls = #[⟨maxBlock, bytes⟩] := by
    rw [hcalls, if_neg hne, hlength]
    rfl
  rw [hone] at hflushedAt
  exact ⟨⟨rfl, hquiet, hdue, hlength, hsink⟩, hhere, hresult, hone, hflushedAt⟩

end Outbox

end SegmentClient
