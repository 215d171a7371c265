import SegmentClient.Proofs.Sink.Offers
import Mathlib.Data.List.Infix

namespace SegmentClient.Frame

open Sink

/-- What is to be offered once so many bytes of a frame have been taken. -/
def due (frame : Frame) (count : Nat) : List UInt8 :=
  if count < headerSize then frame.header.drop count else frame.payload.drop (count - headerSize)

theorem due_of_header (frame : Frame) {count : Nat} (h : frame.header.drop count ≠ []) :
    frame.due count = frame.header.drop count := by
  have hlt : count < headerSize := by
    rw [← frame.length_header]
    exact List.length_lt_of_drop_ne_nil h
  rw [due, if_pos hlt]

theorem due_of_payload (frame : Frame) (count : Nat) :
    frame.due (frame.header.length + count) = frame.payload.drop count := by
  rw [frame.length_header, due, if_neg (by omega), Nat.add_sub_cancel_left]

theorem write_delivers (frame : Frame) (sink : Sink) (h : frame.payload.length ≤ maxPayload) :
    ∃ calls : List Call,
      (frame.write sink = (.ok frame.size, sink.past calls) ∧
        Delivery frame.due frame.bytes sink.turns calls none) ∨
      ∃ fault, frame.write sink = (.error (.stream fault), sink.past calls) ∧
        Delivery frame.due frame.bytes sink.turns calls (some fault) := by
  have hdue : ∀ count, frame.header.drop count ≠ [] → frame.due count = frame.header.drop count :=
    fun _ => frame.due_of_header
  obtain ⟨calls, ⟨hheader, hcalls⟩ | ⟨fault, hheader, hcalls⟩⟩ := sink.writeAll_cases frame.header
  · obtain ⟨more, hrest⟩ := (sink.past calls).writeAll_cases frame.payload
    refine ⟨calls ++ more, ?_⟩
    rw [write, if_neg (Nat.not_lt.mpr h)]
    simp only [ByteSink.writeAll, hheader]
    obtain ⟨hpayload, hmore⟩ | ⟨fault, hpayload, hmore⟩ := hrest
    · refine Or.inl ⟨by rw [hpayload, past_past]; rfl, ?_⟩
      exact (hcalls.mono hdue).trans (hmore.mono fun count _ => frame.due_of_payload count)
    · refine Or.inr ⟨fault, by rw [hpayload, past_past], ?_⟩
      exact (hcalls.mono hdue).trans (hmore.mono fun count _ => frame.due_of_payload count)
  · refine ⟨calls, Or.inr ⟨fault, ?_, (hcalls.mono hdue).broken frame.payload⟩⟩
    rw [write, if_neg (Nat.not_lt.mpr h)]
    simp only [ByteSink.writeAll, hheader]

/-- A frame over the limit is refused, and its sink sees no call. Any other is written by calls that
offer the rest of the header or, once that is taken, the rest of the payload, and never nothing. The
write succeeds exactly if all of the frame has been taken; else it fails with the first fault among
the sink's turns, interruptions apart. -/
theorem write_to_sink (frame : Frame) (sink : Sink) :
    let result := (frame.write sink).1
    let after := (frame.write sink).2
    (maxPayload < frame.payload.length → result = .error (.tooLarge frame.payload.length) ∧ after = sink) ∧
    (frame.payload.length ≤ maxPayload → ∃ calls : List Call,
      let used := sink.turns.take calls.length
      let taken := calls.flatMap (·.taken)
      after = { sink with turns := sink.turns.drop calls.length, calls := sink.calls ++ calls.toArray } ∧
      Served frame.due 0 sink.turns calls ∧
      (∀ count, (calls.take count).flatMap (·.taken) <+: frame.bytes) ∧
      (∀ size, result = .ok size ↔ taken = frame.bytes ∧ size = frame.bytes.length) ∧
      (taken = frame.bytes → ∀ turn ∈ used, turn.fault? = none) ∧
      (taken ≠ frame.bytes → ∃ before turn fault, used = before ++ [turn] ∧
        (∀ turn ∈ before, turn.fault? = none) ∧ turn.fault? = some fault ∧
        result = .error (.stream fault))) := by
  intro result after
  refine ⟨fun hlarge => ?_, fun hfits => ?_⟩
  · have hwrite := frame.write_of_tooLarge sink hlarge
    exact ⟨congrArg Prod.fst hwrite, congrArg Prod.snd hwrite⟩
  · obtain ⟨calls, hcalls⟩ := frame.write_delivers sink hfits
    have hfront : ∀ {fault?}, Delivery frame.due frame.bytes sink.turns calls fault? →
        ∀ count, (calls.take count).flatMap (·.taken) <+: frame.bytes := by
      intro fault? hdelivery count
      exact (List.IsPrefix.flatMap (List.take_prefix count calls) _).trans hdelivery.taken
    refine ⟨calls, ?_⟩
    obtain ⟨hwrite, hdelivery⟩ | ⟨fault, hwrite, hdelivery⟩ := hcalls
    · have hwhole := hdelivery.whole.mp rfl
      have hresult : result = .ok frame.size := congrArg Prod.fst hwrite
      refine ⟨congrArg Prod.snd hwrite, hdelivery.served, hfront hdelivery, fun size => ?_,
        fun _ => hdelivery.spent.unharmed_of_none, absurd hwhole⟩
      rw [hresult, Except.ok.injEq, frame.length_bytes, eq_comm]
      exact (and_iff_right hwhole).symm
    · have hpart : ¬ calls.flatMap (·.taken) = frame.bytes := fun h => nomatch hdelivery.whole.mpr h
      have hresult : result = .error (.stream fault) := congrArg Prod.fst hwrite
      refine ⟨congrArg Prod.snd hwrite, hdelivery.served, hfront hdelivery, fun size => ?_,
        fun h => absurd h hpart, fun _ => ?_⟩
      · rw [hresult]
        exact iff_of_false nofun fun h => hpart h.1
      · obtain ⟨before, turn, hused, hbefore, hfault⟩ := hdelivery.spent.exists_broken
        exact ⟨before, turn, fault, hused, hbefore, hfault, hresult⟩

theorem write_to_sink_pieces :
    let hello := (Request.hello {}).frame
    let broken : Sink := { turns := [.take 5, .fail .interrupted, .take 9, .fail .timedOut, .take 1] }
    let alive := Request.keepAlive.frame
    let slow : Sink := { turns := [.take 3] }
    let append : Append := .single 1 1 (List.replicate 8388564 0)
    let long := append.frame
    (hello.payload.length ≤ maxPayload ∧ Served hello.due 0 broken.turns (hello.write broken).2.calls.toList ∧
      (hello.write broken).2.calls.toList.map (·.offered) = [8, 3, 3, 8] ∧
      ∃ fault, (hello.write broken).1 = .error (.stream fault)) ∧
    (alive.payload.length ≤ maxPayload ∧ (alive.write slow).2.calls.toList.map (·.offered) = [8, 5] ∧
      (alive.write slow).1 = .ok 8) ∧
    maxPayload < long.payload.length ∧ (long.write slow).1 = .error (.tooLarge long.payload.length) ∧
      (long.write slow).2 = slow := by
  intro hello broken alive slow append long
  have hhello : hello.payload.length ≤ maxPayload := by decide
  have halive : alive.payload.length ≤ maxPayload := by decide
  have hlong : maxPayload < long.payload.length := by
    have hdata : append.data.length = 8388564 := List.length_replicate
    have hlength : append.frame.payload.length = 8388608 := by
      rw [Append.frame, append.length_payload, hdata]
    exact hlength ▸ by decide
  obtain ⟨calls, hafter, hserved, _, _, _, hfault⟩ := (hello.write_to_sink broken).2 hhello
  obtain ⟨more, hmore, _, _, hok, _⟩ := (alive.write_to_sink slow).2 halive
  have hcalls : calls = (hello.write broken).2.calls.toList := by simp [hafter, broken]
  have hpieces : more = (alive.write slow).2.calls.toList := by simp [hmore, slow]
  subst hcalls hpieces
  have hrefused := (long.write_to_sink slow).1 hlong
  refine ⟨⟨hhello, hserved, by decide, ?_⟩, ⟨halive, by decide, ?_⟩, hlong, hrefused⟩
  · obtain ⟨_, _, fault, _, _, _, hresult⟩ := hfault (by decide)
    exact ⟨fault, hresult⟩
  · exact (hok 8).mpr (by decide)

end SegmentClient.Frame
