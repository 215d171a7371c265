import SegmentClient.Proofs.Frame.Reading

namespace SegmentClient

open Wire

namespace Frame

theorem length_int32 (n : Int32) : (Field.int32.encode n).length = 4 :=
  BigEndian.length_encode 4 n.toBitVec.toNat

theorem exists_int32 (bytes : List UInt8) (h : bytes.length = 4) :
    ∃ n : Int32, bytes = Field.int32.encode n := by
  have hdecode := BigEndian.encode_decode bytes
  have hlt := BigEndian.decode_lt bytes
  rw [h] at hdecode hlt
  refine ⟨Int32.ofBitVec (BitVec.ofNat 32 (BigEndian.decode bytes)), ?_⟩
  rw [Field.encode, toNat_word _ hlt, hdecode]

theorem readHeader_encode (code length : Int32) :
    readHeader (Field.int32.encode code ++ Field.int32.encode length) =
      (CommandKind.ofCode? code).elim (.error (.unknownCommand code)) fun kind =>
        if 0 ≤ length.toInt ∧ length.toInt ≤ maxPayload then .ok (kind, length.toInt.toNat)
        else .error (.invalidLength length) := by
  have hback : ∀ n : Int32, Int32.ofBitVec (BitVec.ofNat 32 (BigEndian.decode (Field.int32.encode n))) = n := by
    intro n
    have hdecode : BigEndian.decode (Field.int32.encode n) = n.toBitVec.toNat := by
      rw [Field.encode, BigEndian.decode_encode]
      exact Nat.mod_eq_of_lt n.toBitVec.isLt
    rw [hdecode, BitVec.ofNat_toNat, BitVec.setWidth_eq, Int32.ofBitVec_toBitVec]
  simp only [readHeader, List.take_left' (length_int32 code), List.drop_left' (length_int32 code), hback]
  cases CommandKind.ofCode? code <;> rfl

end Frame

namespace Reply

/-- What comes of reading a frame off bytes behind which a source fails with `ending`, and how many of
them are taken. -/
inductive Yields (ending : StreamFault) : List UInt8 → Except FrameFault Reply → Nat → Prop
  | cutHeader {bytes : List UInt8} : bytes.length < headerSize →
      Yields ending bytes (.error (.stream ending)) bytes.length
  | unknown {code length : Int32} {rest : List UInt8} : CommandKind.ofCode? code = none →
      Yields ending (Field.int32.encode code ++ Field.int32.encode length ++ rest)
        (.error (.unknownCommand code)) headerSize
  | outOfBounds {code length : Int32} {kind : CommandKind} {rest : List UInt8} :
      CommandKind.ofCode? code = some kind → length.toInt < 0 ∨ maxPayload < length.toInt →
      Yields ending (Field.int32.encode code ++ Field.int32.encode length ++ rest)
        (.error (.invalidLength length)) headerSize
  | cutPayload {code length : Int32} {kind : CommandKind} {rest : List UInt8} :
      CommandKind.ofCode? code = some kind → length.toInt ≤ maxPayload → rest.length < length.toInt →
      Yields ending (Field.int32.encode code ++ Field.int32.encode length ++ rest)
        (.error (.stream ending)) (headerSize + rest.length)
  | whole {code length : Int32} {kind : CommandKind} {payload rest : List UInt8} :
      CommandKind.ofCode? code = some kind → length.toInt ≤ maxPayload → length.toInt = payload.length →
      Yields ending (Field.int32.encode code ++ Field.int32.encode length ++ (payload ++ rest))
        (decode kind payload) (headerSize + payload.length)

theorem exists_yields (ending : StreamFault) (bytes : List UInt8) :
    ∃ outcome size, Yields ending bytes outcome size := by
  by_cases hheader : bytes.length < headerSize
  · exact ⟨_, _, .cutHeader hheader⟩
  · unfold headerSize at hheader
    obtain ⟨code, hcode⟩ := Frame.exists_int32 (bytes.take 4) (by rw [List.length_take]; omega)
    obtain ⟨length, hlength⟩ := Frame.exists_int32 ((bytes.drop 4).take 4)
      (by rw [List.length_take, List.length_drop]; omega)
    have hbytes : bytes =
        Field.int32.encode code ++ Field.int32.encode length ++ (bytes.drop 4).drop 4 := by
      rw [← hcode, ← hlength, List.append_assoc, List.take_append_drop, List.take_append_drop]
    generalize (bytes.drop 4).drop 4 = rest at hbytes
    subst hbytes
    cases hkind : CommandKind.ofCode? code with
    | none => exact ⟨_, _, .unknown hkind⟩
    | some kind =>
        by_cases hbounds : length.toInt < 0 ∨ maxPayload < length.toInt
        · exact ⟨_, _, .outOfBounds hkind hbounds⟩
        · by_cases hrest : rest.length < length.toInt
          · exact ⟨_, _, .cutPayload hkind (by omega) hrest⟩
          · have hsize : length.toInt = (rest.take length.toInt.toNat).length := by
              rw [List.length_take]
              omega
            rw [← List.take_append_drop length.toInt.toNat rest]
            exact ⟨_, _, .whole hkind (by omega) hsize⟩

theorem fill_of_header {source : Source} {code length : Int32} {rest : List UInt8}
    (h : source.outlook.bytes = Field.int32.encode code ++ Field.int32.encode length ++ rest) :
    ∃ middle : Source,
      source.fill headerSize = (.ok (Field.int32.encode code ++ Field.int32.encode length), middle) ∧
      middle.outlook = ⟨rest, source.outlook.fault, source.consumed + headerSize⟩ := by
  have hlength : (Field.int32.encode code ++ Field.int32.encode length).length = headerSize := by
    rw [List.length_append, Frame.length_int32, Frame.length_int32, headerSize]
  obtain ⟨middle, hfill, hmiddle⟩ := source.fill_of_le headerSize
    (by rw [h, List.length_append, hlength]; omega)
  rw [h, List.take_left' hlength] at hfill
  refine ⟨middle, hfill, ?_⟩
  rw [hmiddle, Source.Outlook.skip, h, List.drop_left' hlength]
  rfl

theorem receive_of_yields {source : Source} {outcome : Except FrameFault Reply} {size : Nat}
    (h : Yields source.outlook.fault source.outlook.bytes outcome size) :
    (receive source).1 = outcome ∧ (receive source).2.consumed = source.consumed + size := by
  generalize hbytes : source.outlook.bytes = bytes at h
  cases h with
  | cutHeader hheader =>
      obtain ⟨rest, hfill, hconsumed⟩ := source.fill_of_lt headerSize (by rwa [hbytes])
      rw [hbytes] at hconsumed
      simp only [receive, hfill]
      exact ⟨trivial, hconsumed⟩
  | unknown hcode =>
      obtain ⟨middle, hfill, hmiddle⟩ := fill_of_header hbytes
      simp only [receive, hfill, Frame.readHeader_encode, hcode, Option.elim_none]
      exact ⟨trivial, congrArg Source.Outlook.consumed hmiddle⟩
  | @outOfBounds code length kind rest hcode hbounds =>
      obtain ⟨middle, hfill, hmiddle⟩ := fill_of_header hbytes
      have hrefused : ¬ (0 ≤ length.toInt ∧ length.toInt ≤ maxPayload) := by omega
      simp only [receive, hfill, Frame.readHeader_encode, hcode, Option.elim_some, if_neg hrefused]
      exact ⟨trivial, congrArg Source.Outlook.consumed hmiddle⟩
  | @cutPayload code length kind rest hcode hbounds hrest =>
      obtain ⟨middle, hfill, hmiddle⟩ := fill_of_header hbytes
      have haccepted : 0 ≤ length.toInt ∧ length.toInt ≤ maxPayload := by omega
      have hconsumed : middle.consumed = source.consumed + headerSize :=
        congrArg Source.Outlook.consumed hmiddle
      obtain ⟨last, hsecond, hlast⟩ := middle.fill_of_lt length.toInt.toNat
        (by rw [hmiddle]; exact Int.lt_toNat.mpr hrest)
      rw [hmiddle] at hsecond hlast
      simp only [receive, hfill, Frame.readHeader_encode, hcode, Option.elim_some, if_pos haccepted, hsecond]
      exact ⟨trivial, by rw [hlast, hconsumed, Nat.add_assoc]⟩
  | @whole code length kind payload rest hcode hbounds hsize =>
      obtain ⟨middle, hfill, hmiddle⟩ := fill_of_header hbytes
      have haccepted : 0 ≤ length.toInt ∧ length.toInt ≤ maxPayload := by omega
      have hcount : length.toInt.toNat = payload.length := by omega
      obtain ⟨last, hsecond, hlast⟩ := middle.fill_of_le payload.length
        (by rw [hmiddle, List.length_append]; omega)
      rw [hmiddle, List.take_left] at hsecond
      rw [hmiddle] at hlast
      simp only [receive, hfill, Frame.readHeader_encode, hcode, Option.elim_some, if_pos haccepted,
        hcount, hsecond]
      exact ⟨trivial, by rw [← Nat.add_assoc]; exact congrArg Source.Outlook.consumed hlast⟩

/-- A reading comes to what the bytes ahead yield, whatever its buffer held before. An unknown code
counts before the length, and both before the payload, which is taken whole before it is decoded; so
where one frame follows the other, each reading reports its own frame, whatever the others decode to.
-/
theorem receive_iff_yields (source : Source) :
    ((∀ kind, .fault kind ∈ source.items → kind = .interrupted) →
      Source.lastFault source.items = .endOfSource) ∧
    (∀ outcome size, Yields (Source.lastFault source.items) (Source.ahead source.items) outcome size ↔
      (receive source).1 = outcome ∧ (receive source).2.consumed = source.consumed + size) ∧
    ∀ (frames : List Frame) (tail : List UInt8), (∀ f ∈ frames, f.payload.length ≤ maxPayload) →
      Source.ahead source.items = frames.flatMap Frame.bytes ++ tail →
      (source.readTimes frames.length).map (fun r => (r.outcome, r.source.consumed)) =
        frames.mapIdx fun i f => (decode f.kind f.payload,
          source.consumed + ((frames.map Frame.size).take (i + 1)).sum) := by
  refine ⟨Source.lastFault_of_interrupted, fun outcome size => ⟨receive_of_yields, ?_⟩, ?_⟩
  · rintro ⟨houtcome, hsize⟩
    obtain ⟨other, count, hyields⟩ := exists_yields source.outlook.fault source.outlook.bytes
    obtain ⟨hother, hcount⟩ := receive_of_yields hyields
    have hsame : count = size := Nat.add_left_cancel (hcount.symm.trans hsize)
    rw [← houtcome, hother, ← hsame]
    exact hyields
  · intro frames tail hfit hbytes
    obtain ⟨rest, _, hreadings⟩ := readTimes_of_frames frames hfit tail 0 source hbytes
    rw [Nat.add_zero] at hreadings
    rw [hreadings, Source.readTimes, List.map_nil, List.append_nil]

theorem receive_iff_yields_mixed :
    let frames : List Frame := [⟨.hello, [0, 0, 0, 9, 0, 0, 0, 5, 1]⟩, ⟨.wrongHost, [1, 2, 3]⟩,
      ⟨.setupAppend, [7]⟩, ⟨.keepAlive, []⟩]
    let unknown : List UInt8 := [0, 0, 0, 3, 0xFF, 0xFF, 0xFF, 0xFF, 5]
    let source : Source :=
      { items := [.chunk (frames.flatMap Frame.bytes).dropLast, .fault .interrupted, .chunk [0], .chunk unknown]
        buffer := #[1, 2, 3] }
    let later : Source := { items := [.chunk unknown] }
    Source.ahead source.items = frames.flatMap Frame.bytes ++ unknown ∧
    (source.readTimes 4).map (fun r => (r.outcome, r.source.consumed)) =
      [(.ok (.hello ⟨9, 5⟩), 17), (.error (.payload (.tooShort 5)), 28),
        (.error (.unexpectedCommand .setupAppend), 37), (.ok .keepAlive, 45)] ∧
    (receive later).1 = .error (.unknownCommand 3) ∧ (receive later).2.consumed = 8 := by
  intro frames unknown source later
  have hbytes : Source.ahead source.items = frames.flatMap Frame.bytes ++ unknown := by decide
  have hheader : unknown = Field.int32.encode 3 ++ Field.int32.encode (-1) ++ [5] := by decide
  have hunknown : Yields .endOfSource unknown (.error (.unknownCommand 3)) headerSize := by
    rw [hheader]
    exact .unknown (by decide)
  refine ⟨hbytes, ((receive_iff_yields source).2.2 frames unknown (by decide) hbytes).trans (by cbv), ?_⟩
  exact ((receive_iff_yields later).2.1 _ _).mp hunknown

end Reply

end SegmentClient
