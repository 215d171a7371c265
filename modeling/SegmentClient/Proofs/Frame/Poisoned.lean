import SegmentClient.Proofs.Frame.Canonical
import SegmentClient.Proofs.Frame.Reading
import SegmentClient.Proofs.Frame.Readings
import SegmentClient.Proofs.Wire.Oversized

namespace SegmentClient

theorem FrameFault.eq_of_aborts {fault : FrameFault} (h : fault.aborts = true) :
    fault = .payload .oversized := by
  cases fault with
  | payload fault =>
      cases fault with
      | oversized => rfl
      | tooShort | badText => cases h
  | _ => cases h

namespace Reply

theorem decode_eq_oversized_iff (kind : CommandKind) (payload : List UInt8)
    (hsize : payload.length ≤ Wire.maxRoom) :
    decode kind payload = .error (.payload .oversized) ↔
      kind.isReply = true ∧ kind.layout.Overflows payload := by
  rw [decode_eq_payload_iff, kind.layout.decode_eq_oversized_iff payload hsize]

end Reply

/-- Behind frames that hold replies stands a frame of a reply kind whose payload overflows. -/
inductive Poisoned : List UInt8 → Prop
  | here {kind : CommandKind} {payload : List UInt8} (tail : List UInt8) : kind.isReply = true →
      payload.length ≤ maxPayload → kind.layout.Overflows payload →
        Poisoned ((⟨kind, payload⟩ : Frame).bytes ++ tail)
  | behind (reply : Reply) (more : List UInt8) {tail : List UInt8} :
      (reply.payload ++ more).length ≤ maxPayload → Poisoned tail →
        Poisoned ((⟨reply.kind, reply.payload ++ more⟩ : Frame).bytes ++ tail)

namespace Source

theorem aborts_of_poisoned {bytes : List UInt8} (h : Poisoned bytes) {source : Source}
    (hbytes : source.outlook.bytes = bytes) :
    ∃ reading ∈ source.readings, reading.aborts = true := by
  induction h generalizing source with
  | @here kind payload tail hreply hlimit hover =>
      have hsize : payload.length ≤ Wire.maxRoom := Nat.le_trans hlimit (by decide)
      obtain ⟨rest, hreceive, _⟩ := Reply.receive_frame ⟨kind, payload⟩ hlimit tail source hbytes
      rw [(Reply.decode_eq_oversized_iff kind payload hsize).mpr ⟨hreply, hover⟩] at hreceive
      rw [readings_of_error hreceive]
      refine ⟨source.read, List.mem_singleton_self _, ?_⟩
      rw [read, hreceive]
      rfl
  | @behind reply more tail hlimit _ ih =>
      have hsize : reply.payload.length ≤ Wire.maxRoom := by
        rw [List.length_append] at hlimit
        exact Nat.le_trans (Nat.le_of_add_right_le hlimit) (by decide)
      obtain ⟨rest, hreceive, hskip⟩ :=
        Reply.receive_frame ⟨reply.kind, reply.payload ++ more⟩ hlimit tail source hbytes
      rw [reply.decode_payload more (reply.kind.layout.inRange_of_length _ hsize)] at hreceive
      have hrest : rest.outlook.bytes = tail := by
        rw [hskip, Outlook.skip, hbytes, List.drop_left' (Frame.length_bytes _)]
      obtain ⟨reading, hmem, haborts⟩ := ih hrest
      rw [readings_of_ok hreceive]
      exact ⟨reading, List.mem_cons_of_mem _ hmem, haborts⟩

theorem fault_of_aborts {source rest : Source} {fault : FrameFault}
    (hreceive : Reply.receive source = (.error fault, rest))
    {readings : List Reading} (hreadings : source.readings = readings)
    {reading : Reading} (hmem : reading ∈ readings) (haborts : reading.aborts = true) :
    fault = .payload .oversized := by
  rw [← hreadings, readings_of_error hreceive, List.mem_singleton] at hmem
  rw [hmem, Reading.aborts, read, hreceive] at haborts
  exact FrameFault.eq_of_aborts haborts

theorem poisoned_of_aborts {source : Source} (h : ∃ reading ∈ source.readings, reading.aborts = true) :
    Poisoned source.outlook.bytes := by
  induction hreadings : source.readings generalizing source with
  | nil => exact absurd hreadings source.readings_ne_nil
  | cons first after ih =>
      obtain ⟨reading, hmem, haborts⟩ := h
      rw [hreadings] at hmem
      obtain ⟨frame, tail, rest, hbytes, hlimit, hreceive, hskip⟩ | ⟨fault, rest, hreceive, hfault⟩ :=
        Reply.receive_cases source
      · have hsize : frame.payload.length ≤ Wire.maxRoom := Nat.le_trans hlimit (by decide)
        rw [hbytes]
        rcases hdecode : Reply.decode frame.kind frame.payload with fault | reply
        · rw [hdecode] at hreceive
          have hfault := fault_of_aborts hreceive hreadings hmem haborts
          obtain ⟨hreply, hover⟩ := (Reply.decode_eq_oversized_iff _ _ hsize).mp (hfault ▸ hdecode)
          exact Poisoned.here tail hreply hlimit hover
        · rw [hdecode] at hreceive
          rw [readings_of_ok hreceive] at hreadings
          obtain ⟨hfirst, hafter⟩ := List.cons.inj hreadings
          have hok : first.aborts = false := by rw [← hfirst, read, hreceive]; rfl
          have hnext : Poisoned rest.outlook.bytes := by
            refine ih ⟨reading, ?_, haborts⟩ hafter
            obtain rfl | hmem := List.mem_cons.mp hmem
            · rw [hok] at haborts
              cases haborts
            · rwa [hafter]
          obtain ⟨kind, payload⟩ := frame
          obtain ⟨rfl, _, more, rfl⟩ := Reply.payload_of_decode hdecode
          rw [hskip, Outlook.skip, hbytes, List.drop_left' (Frame.length_bytes _)] at hnext
          exact Poisoned.behind reply more hlimit hnext
      · have hoversized := fault_of_aborts hreceive hreadings hmem haborts
        subst hoversized
        obtain hstream | ⟨_, hcode⟩ | ⟨_, hlength⟩ := hfault
        · cases hstream
        · cases hcode
        · cases hlength

theorem aborts_iff_poisoned (source : Source) :
    (∃ reading ∈ source.readings, reading.aborts = true) ↔ Poisoned source.outlook.bytes :=
  ⟨poisoned_of_aborts, fun h => aborts_of_poisoned h rfl⟩

theorem aborts_last_iff {source : Source} {before : List Reading} {last : Reading}
    (hreadings : source.readings = before ++ [last])
    (hok : ∀ reading ∈ before, ∃ reply, reading.outcome = .ok reply) {fault : FrameFault}
    (hfault : last.outcome = .error fault) : fault.aborts = true ↔ Poisoned (ahead source.items) := by
  have hlast : last.aborts = fault.aborts := by rw [Reading.aborts, hfault]
  rw [← hlast]
  refine ⟨fun h => source.aborts_iff_poisoned.mp ⟨last, by simp [hreadings], h⟩, fun h => ?_⟩
  obtain ⟨reading, hmem, haborts⟩ := source.aborts_iff_poisoned.mpr h
  rw [hreadings, List.mem_append, List.mem_singleton] at hmem
  obtain hmem | rfl := hmem
  · obtain ⟨reply, hreply⟩ := hok reading hmem
    rw [Reading.aborts, hreply] at haborts
    cases haborts
  · exact haborts

end Source

end SegmentClient
