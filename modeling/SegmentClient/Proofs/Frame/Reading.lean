import SegmentClient.Frame
import SegmentClient.Proofs.Source.Outlook
import Mathlib.Algebra.Ring.Nat

namespace SegmentClient

open Wire

namespace Frame

theorem toInt_word (n : Nat) (h : n < BigEndian.span 4) :
    (Int32.ofBitVec (BitVec.ofNat 32 n)).toInt = if n < 0x80000000 then (n : Int) else n - 0x100000000 := by
  have hspan : BigEndian.span 4 = 0x100000000 := by decide
  rw [hspan] at h
  rw [← Int32.toInt_toBitVec, Int32.toBitVec_ofBitVec, BitVec.toInt_eq_toNat_cond, BitVec.toNat_ofNat]
  split <;> split <;> omega

theorem toInt_small (n : Nat) (h : n ≤ maxPayload) : (Int32.ofBitVec (BitVec.ofNat 32 n)).toInt = n := by
  have hspan : maxPayload < BigEndian.span 4 := by decide
  simp only [maxPayload] at h hspan
  rw [toInt_word n (by omega), if_pos (by omega)]

theorem toNat_of_nonneg (n : Nat) (h : n < BigEndian.span 4)
    (hsign : 0 ≤ (Int32.ofBitVec (BitVec.ofNat 32 n)).toInt) :
    (Int32.ofBitVec (BitVec.ofNat 32 n)).toInt.toNat = n := by
  have hspan : BigEndian.span 4 = 0x100000000 := by decide
  rw [toInt_word n h] at hsign ⊢
  rw [hspan] at h
  split at hsign <;> omega

theorem toNat_word (n : Nat) (h : n < BigEndian.span 4) :
    (Int32.ofBitVec (BitVec.ofNat 32 n)).toBitVec.toNat = n := by
  rw [Int32.toBitVec_ofBitVec, BitVec.toNat_ofNat]
  exact Nat.mod_eq_of_lt h

theorem readHeader_header (frame : Frame) (h : frame.payload.length ≤ maxPayload) :
    readHeader frame.header = .ok (frame.kind, frame.payload.length) := by
  have hcode : BigEndian.decode (BigEndian.encode 4 frame.kind.code.toBitVec.toNat) =
      frame.kind.code.toBitVec.toNat := by
    rw [BigEndian.decode_encode]
    exact Nat.mod_eq_of_lt frame.kind.code.toBitVec.isLt
  have hlength : BigEndian.decode (BigEndian.encode 4 frame.payload.length) = frame.payload.length := by
    rw [BigEndian.decode_encode]
    exact Nat.mod_eq_of_lt (Nat.lt_of_le_of_lt h (by decide))
  have hkind : Int32.ofBitVec (BitVec.ofNat 32 frame.kind.code.toBitVec.toNat) = frame.kind.code := by
    rw [BitVec.ofNat_toNat, BitVec.setWidth_eq, Int32.ofBitVec_toBitVec]
  have hsize := toInt_small frame.payload.length h
  simp only [readHeader, header, List.take_left' (BigEndian.length_encode 4 _),
    List.drop_left' (BigEndian.length_encode 4 _), hcode, hlength, hkind, CommandKind.ofCode?_code, hsize]
  rw [if_pos ⟨Int.natCast_nonneg _, Int.ofNat_le.mpr h⟩, Int.toNat_natCast]

theorem header_of_readHeader {bytes : List UInt8} {kind : CommandKind} {size : Nat}
    (hbytes : bytes.length = headerSize) (h : readHeader bytes = .ok (kind, size)) :
    size ≤ maxPayload ∧
      ∀ payload : List UInt8, payload.length = size → bytes = (⟨kind, payload⟩ : Frame).header := by
  obtain ⟨code, length, rfl, hcode, hlength⟩ :
      ∃ code length, bytes = code ++ length ∧ code.length = 4 ∧ length.length = 4 := by
    refine ⟨bytes.take 4, bytes.drop 4, (List.take_append_drop 4 bytes).symm, ?_, ?_⟩
    · rw [List.length_take, hbytes]
      rfl
    · rw [List.length_drop, hbytes]
      rfl
  have hcodeLt := BigEndian.decode_lt code
  have hlengthLt := BigEndian.decode_lt length
  rw [hcode] at hcodeLt
  rw [hlength] at hlengthLt
  simp only [readHeader, List.take_left' hcode, List.drop_left' hcode] at h
  split at h
  · cases h
  · rename_i found hfound
    by_cases hrange : 0 ≤ (Int32.ofBitVec (BitVec.ofNat 32 (BigEndian.decode length))).toInt ∧
        (Int32.ofBitVec (BitVec.ofNat 32 (BigEndian.decode length))).toInt ≤ maxPayload
    · rw [if_pos hrange] at h
      obtain ⟨rfl, rfl⟩ := Prod.mk.inj (Except.ok.inj h)
      refine ⟨Int.toNat_le.mpr hrange.2, ?_⟩
      intro payload hpayload
      rw [toNat_of_nonneg _ hlengthLt hrange.1] at hpayload
      have hback := congrArg (fun n => n.toBitVec.toNat) (CommandKind.code_of_ofCode? hfound)
      simp only [toNat_word _ hcodeLt] at hback
      have hfirst := BigEndian.encode_decode code
      have hsecond := BigEndian.encode_decode length
      rw [hcode] at hfirst
      rw [hlength] at hsecond
      simp only [header, hback, hpayload, hfirst, hsecond]
    · rw [if_neg hrange] at h
      cases h

end Frame

namespace Reply

theorem receive_frame (frame : Frame) (hfit : frame.payload.length ≤ maxPayload) (tail : List UInt8)
    (source : Source) (h : source.outlook.bytes = frame.bytes ++ tail) :
    ∃ rest, receive source = (decode frame.kind frame.payload, rest) ∧
      rest.outlook = source.outlook.skip frame.size := by
  have hbytes : source.outlook.bytes = frame.header ++ (frame.payload ++ tail) := by
    rw [h, Frame.bytes, List.append_assoc]
  obtain ⟨middle, hfill, hmiddle⟩ := Source.fill_of_le headerSize source
    (by rw [hbytes, List.length_append, frame.length_header]; omega)
  rw [hbytes, List.take_left' frame.length_header] at hfill
  have hrest : middle.outlook.bytes = frame.payload ++ tail := by
    rw [hmiddle, Source.Outlook.skip, hbytes, List.drop_left' frame.length_header]
  obtain ⟨rest, hsecond, hskip⟩ := Source.fill_of_le frame.payload.length middle
    (by rw [hrest, List.length_append]; omega)
  rw [hrest, List.take_left] at hsecond
  refine ⟨rest, ?_, ?_⟩
  · simp only [receive, hfill, Frame.readHeader_header frame hfit, hsecond]
  · rw [hskip, hmiddle, Source.Outlook.skip_skip, Frame.size]

/-- Every way a reading may go. Where no frame within the limit stands in front, the fault is not
one of the payload. -/
theorem receive_cases (source : Source) :
    (∃ (frame : Frame) (tail : List UInt8) (rest : Source),
      source.outlook.bytes = frame.bytes ++ tail ∧ frame.payload.length ≤ maxPayload ∧
      receive source = (decode frame.kind frame.payload, rest) ∧
      rest.outlook = source.outlook.skip frame.size) ∨
    ∃ fault rest, receive source = (.error fault, rest) ∧
      (fault = .stream source.outlook.fault ∨ (∃ code, fault = .unknownCommand code) ∨
        ∃ length, fault = .invalidLength length) := by
  by_cases hheader : headerSize ≤ source.outlook.bytes.length
  · obtain ⟨middle, hfill, hmiddle⟩ := Source.fill_of_le headerSize source hheader
    have hlength : (source.outlook.bytes.take headerSize).length = headerSize :=
      List.length_take_of_le hheader
    cases hread : Frame.readHeader (source.outlook.bytes.take headerSize) with
    | error fault =>
        refine Or.inr ⟨fault, middle, by simp only [receive, hfill, hread], ?_⟩
        simp only [Frame.readHeader] at hread
        split at hread
        · cases hread
          exact Or.inr (Or.inl ⟨_, rfl⟩)
        · split at hread
          · cases hread
          · cases hread
            exact Or.inr (Or.inr ⟨_, rfl⟩)
    | ok found =>
        obtain ⟨kind, size⟩ := found
        obtain ⟨hlimit, hwritten⟩ := Frame.header_of_readHeader hlength hread
        have hmid : middle.outlook.bytes = source.outlook.bytes.drop headerSize := by
          rw [hmiddle, Source.Outlook.skip]
        by_cases hpayload : size ≤ middle.outlook.bytes.length
        · have htake : (middle.outlook.bytes.take size).length = size := List.length_take_of_le hpayload
          obtain ⟨rest, hsecond, hskip⟩ := Source.fill_of_le size middle hpayload
          refine Or.inl ⟨⟨kind, middle.outlook.bytes.take size⟩, middle.outlook.bytes.drop size, rest,
            ?_, ?_, ?_, ?_⟩
          · rw [Frame.bytes, ← hwritten _ htake, List.append_assoc, List.take_append_drop, hmid,
              List.take_append_drop]
          · rw [htake]
            exact hlimit
          · simp only [receive, hfill, hread, hsecond]
          · rw [hskip, hmiddle, Source.Outlook.skip_skip, Frame.size, ← hmiddle, htake]
        · obtain ⟨rest, hsecond, _⟩ := Source.fill_of_lt size middle (Nat.lt_of_not_le hpayload)
          refine Or.inr ⟨_, rest, by simp only [receive, hfill, hread, hsecond]; rfl, Or.inl ?_⟩
          rw [hmiddle, Source.Outlook.skip]
  · obtain ⟨rest, hfill, _⟩ := Source.fill_of_lt headerSize source (Nat.lt_of_not_le hheader)
    exact Or.inr ⟨_, rest, by simp only [receive, hfill], Or.inl rfl⟩

/-- Readings of a source that begins with frames: each comes to what its own frame's payload decodes to
and consumes that frame, and further ones meet what lies behind them all. -/
theorem readTimes_of_frames (frames : List Frame) (hfit : ∀ f ∈ frames, f.payload.length ≤ maxPayload)
    (tail : List UInt8) (more : Nat) (source : Source)
    (h : source.outlook.bytes = frames.flatMap Frame.bytes ++ tail) :
    ∃ rest : Source, rest.outlook = ⟨tail, source.outlook.fault,
        source.consumed + (frames.map Frame.size).sum⟩ ∧
      (source.readTimes (frames.length + more)).map (fun r => (r.outcome, r.source.consumed)) =
        (frames.mapIdx fun i f => (decode f.kind f.payload,
          source.consumed + ((frames.map Frame.size).take (i + 1)).sum)) ++
        (rest.readTimes more).map (fun r => (r.outcome, r.source.consumed)) := by
  induction frames generalizing source with
  | nil =>
      have htail : source.outlook.bytes = tail := h
      exact ⟨source, by rw [← htail]; rfl, by simp⟩
  | cons frame frames ih =>
      rw [List.flatMap_cons, List.append_assoc] at h
      obtain ⟨next, hreceive, hskip⟩ := receive_frame frame (hfit frame (List.mem_cons_self ..)) _ source h
      rw [Source.Outlook.skip, h, List.drop_left' frame.length_bytes] at hskip
      have hconsumed : next.consumed = source.consumed + frame.size := congrArg Source.Outlook.consumed hskip
      have hread : source.read = ⟨decode frame.kind frame.payload, source.stops < next.stops, next⟩ := by
        rw [Source.read, hreceive]
      obtain ⟨rest, hrest, hreadings⟩ := ih (fun f hf => hfit f (List.mem_cons_of_mem _ hf)) next
        (by rw [hskip])
      rw [hskip, hconsumed] at hrest
      rw [hconsumed] at hreadings
      refine ⟨rest, ?_, ?_⟩
      · rw [hrest, List.map_cons, List.sum_cons, Nat.add_assoc]
      · rw [List.length_cons, Nat.succ_add, Source.readTimes, hread, List.map_cons, hreadings, List.mapIdx_cons]
        simp [hconsumed, Nat.add_assoc]

end Reply

end SegmentClient
