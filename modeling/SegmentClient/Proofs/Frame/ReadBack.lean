import SegmentClient.Proofs.Frame.Reading
import SegmentClient.Proofs.Sink.Growth

namespace SegmentClient.Reply

open Wire

theorem decode_frame (reply : Reply) (h : reply.frame.fits = true) :
    decode reply.frame.kind reply.frame.payload = .ok reply := by
  have hlimit : reply.payload.length ≤ maxPayload := of_decide_eq_true h
  have hrange : reply.InRange := Wire.Layout.inRange_of_length _ _ (Nat.le_trans hlimit (by decide))
  have hdecode := reply.decode_payload [] hrange
  rwa [List.append_nil] at hdecode

theorem readTimes_frames (replies : List Reply) (hfits : ∀ reply ∈ replies, reply.frame.fits = true)
    (source : Source) (h : source.outlook.bytes = replies.flatMap (·.frame.bytes)) :
    (source.readTimes (replies.length + 1)).map (fun r => (r.outcome, r.source.consumed)) =
      (replies.mapIdx fun i reply =>
        (.ok reply, source.consumed + ((replies.map (·.frame.size)).take (i + 1)).sum)) ++
      [(.error (.stream source.outlook.fault),
        source.consumed + (replies.map (·.frame.size)).sum)] := by
  obtain ⟨rest, hrest, hreadings⟩ := readTimes_of_frames (replies.map frame)
    (List.forall_mem_map.mpr fun reply hreply => of_decide_eq_true (hfits reply hreply)) [] 1 source
    (by rw [h, List.append_nil, List.flatMap_map])
  obtain ⟨last, hfill, hconsumed⟩ := rest.fill_of_lt headerSize (by rw [hrest]; exact Nat.zero_lt_succ 7)
  have hlast : rest.read = ⟨.error (.stream source.outlook.fault), rest.stops < last.stops, last⟩ := by
    rw [hrest] at hfill
    simp only [Source.read, receive, hfill]
  have hend : last.consumed = source.consumed + ((replies.map frame).map Frame.size).sum := by
    rw [hconsumed, hrest]
    exact congrArg Source.Outlook.consumed hrest
  rw [List.length_map] at hreadings
  rw [hreadings, Source.readTimes, Source.readTimes, hlast, List.map_singleton, hend, List.map_map]
  congr 1
  apply List.ext_getElem (by simp)
  intro i hi _
  rw [List.length_mapIdx, List.length_map] at hi
  simp [decode_frame _ (hfits _ (List.getElem_mem hi)), Function.comp_def]

theorem toOption_receipts (replies : List Reply) :
    ((replies.map frame).map Frame.receipt).filterMap (·.toOption) =
      (replies.filter (·.frame.fits)).map (·.frame.size) := by
  induction replies with
  | nil => rfl
  | cons reply replies ih =>
      simp only [List.map_cons, List.filterMap_cons, List.filter_cons, ih]
      by_cases hfits : reply.frame.fits = true
      · have hsize : reply.frame.receipt.toOption = some reply.frame.size := by
          rw [Frame.receipt, if_pos hfits]
          rfl
        simp only [hsize, if_pos hfits, List.map_cons]
      · have hnone : reply.frame.receipt.toOption = none := by
          rw [Frame.receipt, if_neg hfits]
          rfl
        simp only [hnone, if_neg hfits]

/-- Of replies written one behind the other, those over the limit are refused and leave no byte; the
others are read back in order, and after each reading exactly what was written for the replies so
far has been consumed. One more reading finds the end and consumes nothing. -/
theorem readTimes_writeEach (replies : List Reply) (source : Source)
    (hbytes : Source.ahead source.items = (Frame.writeEach (replies.map frame) ({} : Sink)).2.taken)
    (hend : Source.lastFault source.items = .endOfSource) :
    let results := (Frame.writeEach (replies.map frame) ({} : Sink)).1
    let fitting := replies.filter (·.payload.length ≤ maxPayload)
    let sizes := results.filterMap (·.toOption)
    (results = replies.map fun reply =>
      if reply.payload.length ≤ maxPayload then .ok (headerSize + reply.payload.length)
      else .error (.tooLarge reply.payload.length)) ∧
    (source.readTimes (fitting.length + 1)).map (fun r => (r.outcome, r.source.consumed)) =
      (fitting.mapIdx fun i reply => (.ok reply, source.consumed + (sizes.take (i + 1)).sum)) ++
      [(.error (.stream .endOfSource), source.consumed + sizes.sum)] ∧
    ∀ {ω : Type} [ByteSink ω] (reply : Reply) (out : ω), maxPayload < reply.payload.length →
      reply.frame.write out = (.error (.tooLarge reply.payload.length), out) := by
  intro results fitting sizes
  obtain ⟨hresults, htaken⟩ := Frame.writeEach_to_plain (replies.map frame) {} rfl
  have hsizes : sizes = fitting.map (·.frame.size) :=
    (congrArg (List.filterMap (·.toOption)) hresults).trans (toOption_receipts replies)
  have hfront : source.outlook.bytes = fitting.flatMap (·.frame.bytes) := by
    rw [Source.outlook, hbytes, htaken, List.filter_map, List.flatMap_map]
    rfl
  have hfits : ∀ reply ∈ fitting, reply.frame.fits = true :=
    fun reply hreply => (List.mem_filter.mp hreply).2
  refine ⟨?_, ?_, fun reply out h => Frame.write_of_tooLarge reply.frame out h⟩
  · refine hresults.trans ?_
    rw [List.map_map]
    apply List.map_congr_left
    intro reply _
    simp only [Function.comp_apply, Frame.receipt, Frame.fits, decide_eq_true_eq, Frame.size]
    rfl
  · rw [readTimes_frames fitting hfits source hfront, hsizes, Source.outlook, hend]

theorem readTimes_writeEach_cut :
    let source : Source :=
      { items := [.chunk [0xFF, 0xFF, 0xFF, 0x81, 0, 0, 0, 8, 0, 0], .fault .interrupted, .chunk [],
          .chunk [0, 15, 0, 0, 0, 5, 0, 0], .chunk [0, 100, 0, 0, 0, 0]]
        buffer := #[1, 2, 3] }
    Source.ahead source.items =
      (Frame.writeEach ([Reply.hello {}, .keepAlive].map frame) ({} : Sink)).2.taken ∧
    Source.lastFault source.items = .endOfSource ∧
    (source.readTimes 3).map (fun r => (r.outcome, r.source.consumed)) =
      [(.ok (.hello {}), 16), (.ok .keepAlive, 24), (.error (.stream .endOfSource), 24)] :=
  ⟨by decide, by decide, (readTimes_writeEach [.hello {}, .keepAlive] _ (by decide) (by decide)).2.1⟩

end SegmentClient.Reply
