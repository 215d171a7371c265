import SegmentClient.Proofs.Frame.Reading
import SegmentClient.Proofs.Frame.Readings
import Mathlib.Data.List.Forall2

namespace SegmentClient

namespace Reply

/-- The reply in front of bytes that are all there, and how many of them its frame takes up. The fault
is `none` where the bytes end before the frame does. -/
def parse (bytes : List UInt8) : Except (Option FrameFault) Reply × Nat :=
  if bytes.length < headerSize then (.error none, bytes.length)
  else
    match Frame.readHeader (bytes.take headerSize) with
    | .error fault => (.error (some fault), headerSize)
    | .ok (kind, length) =>
      if bytes.length < headerSize + length then (.error none, bytes.length)
      else ((decode kind ((bytes.drop headerSize).take length)).mapError some, headerSize + length)

theorem size_parse {bytes : List UInt8} {reply : Reply} {size : Nat} (h : parse bytes = (.ok reply, size)) :
    headerSize ≤ size ∧ size ≤ bytes.length := by
  unfold parse at h
  split at h
  · cases h
  · split at h
    · cases h
    · split at h
      · cases h
      · rename_i hlength
        obtain ⟨_, rfl⟩ := Prod.mk.inj h
        exact ⟨Nat.le_add_right .., Nat.not_lt.mp hlength⟩

def parseAll (start : Nat) (bytes : List UInt8) : List (Except (Option FrameFault) Reply × Nat) :=
  match _h : parse bytes with
  | (.error fault, size) => [(.error fault, start + size)]
  | (.ok reply, size) => (.ok reply, start + size) :: parseAll (start + size) (bytes.drop size)
termination_by bytes.length
decreasing_by
  have hsize := size_parse _h
  rw [List.length_drop]
  unfold headerSize at hsize
  omega

theorem parseAll_of_error {bytes : List UInt8} {fault : Option FrameFault} {size : Nat}
    (h : parse bytes = (.error fault, size)) (start : Nat) :
    parseAll start bytes = [(.error fault, start + size)] := by
  rw [parseAll]
  split
  · rename_i hparse
    cases h.symm.trans hparse
    rfl
  · rename_i hparse
    cases h.symm.trans hparse

theorem parseAll_of_ok {bytes : List UInt8} {reply : Reply} {size : Nat}
    (h : parse bytes = (.ok reply, size)) (start : Nat) :
    parseAll start bytes = (.ok reply, start + size) :: parseAll (start + size) (bytes.drop size) := by
  rw [parseAll]
  split
  · rename_i hparse
    cases h.symm.trans hparse
  · rename_i hparse
    cases h.symm.trans hparse
    rfl

theorem parse_frame {frame : Frame} {reply : Reply} (hfits : frame.payload.length ≤ maxPayload)
    (hdecode : decode frame.kind frame.payload = .ok reply) (tail : List UInt8) :
    parse (frame.bytes ++ tail) = (.ok reply, frame.size) := by
  have hbytes : frame.bytes ++ tail = frame.header ++ (frame.payload ++ tail) := by
    rw [Frame.bytes, List.append_assoc]
  have hlength : (frame.bytes ++ tail).length = headerSize + frame.payload.length + tail.length := by
    rw [List.length_append, frame.length_bytes, Frame.size]
  have hheader : (frame.bytes ++ tail).take headerSize = frame.header := by
    rw [hbytes, List.take_left' frame.length_header]
  have hpayload : ((frame.bytes ++ tail).drop headerSize).take frame.payload.length = frame.payload := by
    rw [hbytes, List.drop_left' frame.length_header, List.take_left]
  rw [parse, if_neg (by omega)]
  simp only [hheader, Frame.readHeader_header frame hfits]
  rw [if_neg (by omega), hpayload, hdecode]
  rfl

theorem parse_append (bytes more : List UInt8) (h : (parse bytes).1 ≠ .error none) :
    parse (bytes ++ more) = parse bytes := by
  have hheader : headerSize ≤ bytes.length := by
    apply Nat.le_of_not_lt
    intro hshort
    exact h (by rw [parse, if_pos hshort])
  have htake : (bytes ++ more).take headerSize = bytes.take headerSize :=
    List.take_append_of_le_length hheader
  rw [parse, if_neg (by rw [List.length_append]; omega), htake]
  rw [parse, if_neg (Nat.not_lt.mpr hheader)] at h ⊢
  split
  · rfl
  · rename_i kind length hread
    simp only [hread] at h
    have hpayload : headerSize + length ≤ bytes.length := by
      apply Nat.le_of_not_lt
      intro hshort
      exact h (by rw [if_pos hshort])
    rw [if_neg (by rw [List.length_append]; omega), if_neg (Nat.not_lt.mpr hpayload),
      List.drop_append_of_le_length hheader, List.take_append_of_le_length]
    rw [List.length_drop]
    omega

theorem parseAll_append (start : Nat) (bytes more : List UInt8) :
    ∃ before last, parseAll start bytes = before ++ [last] ∧ (∀ entry ∈ before, entry.1 ≠ .error none) ∧
      before <+: parseAll start (bytes ++ more) ∧
      (last.1 ≠ .error none → parseAll start (bytes ++ more) = parseAll start bytes) := by
  fun_induction parseAll start bytes with
  | case1 start bytes fault size h =>
      refine ⟨[], (.error fault, start + size), rfl, nofun, List.nil_prefix, ?_⟩
      intro hlast
      have hparse := parse_append bytes more (by rw [h]; exact hlast)
      exact parseAll_of_error (hparse.trans h) start
  | case2 start bytes reply size h ih =>
      obtain ⟨before, last, hall, hok, hprefix, hsame⟩ := ih
      have hparse := (parse_append bytes more (by rw [h]; nofun)).trans h
      have hdrop : (bytes ++ more).drop size = bytes.drop size ++ more :=
        List.drop_append_of_le_length (size_parse h).2
      rw [parseAll_of_ok hparse start, hdrop, hall]
      refine ⟨(.ok reply, start + size) :: before, last, rfl, ?_, ?_, ?_⟩
      · exact List.forall_mem_cons.mpr ⟨nofun, hok⟩
      · exact List.cons_prefix_cons.mpr ⟨rfl, hprefix⟩
      · intro hlast
        rw [hsame hlast, hall]

theorem parseAll_frames {frames : List Frame} {replies : List Reply}
    (h : List.Forall₂ (fun frame reply => frame.payload.length ≤ maxPayload ∧
      decode frame.kind frame.payload = .ok reply) frames replies) (start : Nat) (tail : List UInt8) :
    replies.map .ok <+: (parseAll start (frames.flatMap Frame.bytes ++ tail)).map (·.1) := by
  induction h generalizing start with
  | nil => exact List.nil_prefix
  | cons hframe _ ih =>
      rw [List.flatMap_cons, List.append_assoc, parseAll_of_ok (parse_frame hframe.1 hframe.2 _),
        List.drop_left' (Frame.length_bytes _), List.map_cons, List.map_cons]
      exact List.cons_prefix_cons.mpr ⟨rfl, ih _⟩

def reported (ending : StreamFault) : Except (Option FrameFault) Reply → Except FrameFault Reply
  | .ok reply => .ok reply
  | .error none => .error (.stream ending)
  | .error (some fault) => .error fault

theorem reported_mapError (ending : StreamFault) (outcome : Except FrameFault Reply) :
    reported ending (outcome.mapError some) = outcome := by
  cases outcome <;> rfl

theorem reported_eq {outcome : Except (Option FrameFault) Reply} (h : outcome ≠ .error none)
    (first second : StreamFault) : reported first outcome = reported second outcome := by
  rcases outcome with (_ | fault) | reply
  · exact absurd rfl h
  · rfl
  · rfl

theorem receive_eq_parse (source : Source) :
    ∃ rest, receive source = (reported source.outlook.fault (parse source.outlook.bytes).1, rest) ∧
      rest.consumed = source.consumed + (parse source.outlook.bytes).2 ∧
      ∀ reply size, parse source.outlook.bytes = (.ok reply, size) →
        rest.outlook = source.outlook.skip size := by
  by_cases hheader : source.outlook.bytes.length < headerSize
  · obtain ⟨rest, hfill, hconsumed⟩ := source.fill_of_lt headerSize hheader
    rw [parse, if_pos hheader]
    refine ⟨rest, by simp only [receive, hfill, reported], hconsumed, ?_⟩
    intro reply size hparse
    cases hparse
  · obtain ⟨middle, hfill, hmiddle⟩ := source.fill_of_le headerSize (Nat.not_lt.mp hheader)
    have hconsumed : middle.consumed = source.consumed + headerSize :=
      congrArg Source.Outlook.consumed hmiddle
    have hbytes : middle.outlook.bytes = source.outlook.bytes.drop headerSize := by
      rw [hmiddle, Source.Outlook.skip]
    rw [parse, if_neg hheader]
    rcases hread : Frame.readHeader (source.outlook.bytes.take headerSize) with fault | ⟨kind, length⟩
    · refine ⟨middle, by simp only [receive, hfill, hread, reported], hconsumed, ?_⟩
      intro reply size hparse
      cases hparse
    · by_cases hpayload : source.outlook.bytes.length < headerSize + length
      · have hshort : middle.outlook.bytes.length < length := by
          rw [hbytes, List.length_drop]
          omega
        obtain ⟨rest, hsecond, hrest⟩ := middle.fill_of_lt length hshort
        refine ⟨rest, ?_, ?_, ?_⟩
        · simp only [receive, hfill, hread, hsecond, if_pos hpayload, reported]
          rw [hmiddle, Source.Outlook.skip]
        · simp only [if_pos hpayload, hrest, hconsumed, hbytes, List.length_drop]
          omega
        · intro reply size hparse
          simp only [if_pos hpayload] at hparse
          cases hparse
      · obtain ⟨rest, hsecond, hskip⟩ := middle.fill_of_le length (by
          rw [hbytes, List.length_drop]
          omega)
        refine ⟨rest, ?_, ?_, ?_⟩
        · simp only [receive, hfill, hread, hsecond, if_neg hpayload, reported_mapError, hbytes]
        · have hrest : rest.consumed = middle.consumed + length := congrArg Source.Outlook.consumed hskip
          simp only [if_neg hpayload, hrest, hconsumed, Nat.add_assoc]
        · intro reply size hparse
          simp only [if_neg hpayload, Prod.mk.injEq] at hparse
          rw [hskip, hmiddle, Source.Outlook.skip_skip, hparse.2]

end Reply

namespace Source

/-- What comes of reading a source up to the first failure: every outcome, with the bytes consumed so
far. -/
def transcript (source : Source) : List (Except FrameFault Reply × Nat) :=
  source.readings.map fun reading => (reading.outcome, reading.source.consumed)

theorem transcript_of_error {source rest : Source} {fault : FrameFault}
    (h : Reply.receive source = (.error fault, rest)) :
    source.transcript = [(.error fault, rest.consumed)] := by
  rw [transcript, readings_of_error h, List.map_singleton, read, h]

theorem transcript_of_ok {source rest : Source} {reply : Reply}
    (h : Reply.receive source = (.ok reply, rest)) :
    source.transcript = (.ok reply, rest.consumed) :: rest.transcript := by
  rw [transcript, readings_of_ok h, List.map_cons, read, h]
  rfl

theorem transcript_eq_map_parseAll (source : Source) :
    source.transcript = (Reply.parseAll source.consumed source.outlook.bytes).map
      (Prod.map (Reply.reported source.outlook.fault) id) := by
  generalize hstart : source.consumed = start
  generalize hbytes : source.outlook.bytes = bytes
  fun_induction Reply.parseAll start bytes generalizing source with
  | case1 start bytes fault size hparse =>
      obtain ⟨rest, hreceive, hconsumed, _⟩ := Reply.receive_eq_parse source
      rw [hbytes, hparse] at hreceive hconsumed
      cases fault with
      | none | some fault =>
          rw [transcript_of_error hreceive, hconsumed, hstart]
          rfl
  | case2 start bytes reply size hparse ih =>
      obtain ⟨rest, hreceive, hconsumed, hskip⟩ := Reply.receive_eq_parse source
      rw [hbytes, hparse] at hreceive hconsumed hskip
      have hrest := hskip reply size rfl
      have hnext := ih rest (by rw [hconsumed, hstart]) (by rw [hrest, Outlook.skip, hbytes])
      rw [transcript_of_ok hreceive, hnext, hconsumed, hstart, hrest]
      rfl

theorem map_reported {entries : List (Except (Option FrameFault) Reply × Nat)}
    (h : ∀ entry ∈ entries, entry.1 ≠ .error none) (first second : StreamFault) :
    entries.map (Prod.map (Reply.reported first) id) = entries.map (Prod.map (Reply.reported second) id) := by
  apply List.map_congr_left
  intro entry hentry
  rw [Prod.map, Prod.map, Reply.reported_eq (h entry hentry) first second]

theorem transcript_of_more {source other : Source} {more : List UInt8}
    (hbytes : other.outlook.bytes = source.outlook.bytes ++ more) (hstart : other.consumed = source.consumed) :
    (∀ before last, source.transcript = before ++ [last] → before <+: other.transcript) ∧
      ((∀ entry ∈ source.transcript, ∀ fault, entry.1 ≠ .error (.stream fault)) →
        other.transcript = source.transcript) := by
  obtain ⟨before, last, hall, hok, hprefix, hsame⟩ :=
    Reply.parseAll_append source.consumed source.outlook.bytes more
  rw [transcript_eq_map_parseAll source, transcript_eq_map_parseAll other, hbytes, hstart]
  constructor
  · intro front final hfront
    rw [hall, List.map_append, List.map_singleton] at hfront
    rw [← (List.append_inj' hfront rfl).1, map_reported hok _ other.outlook.fault]
    exact hprefix.map _
  · intro hnone
    have hlast : last.1 ≠ .error none := by
      intro hcut
      refine hnone _ (List.mem_map_of_mem (a := last) ?_) source.outlook.fault ?_
      · rw [hall]
        exact List.mem_append_right _ (List.mem_singleton_self last)
      · rw [Prod.map, hcut]
        rfl
    rw [hsame hlast]
    apply map_reported
    intro entry hentry
    rw [hall, List.mem_append, List.mem_singleton] at hentry
    obtain hentry | rfl := hentry
    · exact hok entry hentry
    · exact hlast

/-- A source is read as its bytes are parsed all at once, however they come and whatever its buffer
held before: the same replies, the same fault, and the same number of bytes consumed after each. Where
the parser runs out of bytes, the source fails as it goes on. So frames that are all there are
delivered whatever follows them, and more bytes change no outcome but that the bytes ran out. -/
theorem transcript_eq_parseAll (source : Source) :
    source.transcript = (Reply.parseAll source.consumed (ahead source.items)).map
      (Prod.map (Reply.reported (lastFault source.items)) id) ∧
    (∀ (frames : List Frame) (replies : List Reply),
      List.Forall₂ (fun frame reply => frame.payload.length ≤ maxPayload ∧
        Reply.decode frame.kind frame.payload = .ok reply) frames replies →
      frames.flatMap Frame.bytes <+: ahead source.items →
      replies.map .ok <+: source.transcript.map (·.1)) ∧
    ∀ (other : Source) (more : List UInt8), ahead other.items = ahead source.items ++ more →
      other.consumed = source.consumed →
      (∀ before last, source.transcript = before ++ [last] → before <+: other.transcript) ∧
      ((∀ entry ∈ source.transcript, ∀ fault, entry.1 ≠ .error (.stream fault)) →
        other.transcript = source.transcript) := by
  refine ⟨transcript_eq_map_parseAll source, ?_, fun other more => transcript_of_more⟩
  rintro frames replies hframes ⟨tail, htail⟩
  have hparsed := (Reply.parseAll_frames hframes source.consumed tail).map (Reply.reported source.outlook.fault)
  rw [transcript_eq_map_parseAll source, List.map_map]
  rw [htail, List.map_map, List.map_map] at hparsed
  exact hparsed

theorem transcript_eq_parseAll_cut :
    let reply := Reply.hello ⟨5, 1⟩
    let source : Source :=
      { items := [.chunk (reply.frame.bytes.take 3), .fault .interrupted, .chunk [],
          .chunk (reply.frame.bytes.drop 3 ++ [0, 0]), .fault .timedOut, .chunk [9]]
        buffer := #[1, 2, 3] }
    let other : Source := { items := [.chunk (reply.frame.bytes ++ [0, 0] ++ [0, 100, 0, 0, 0, 0])] }
    source.transcript = [(.ok reply, 16), (.error (.stream (.ofKind .timedOut)), 18)] ∧
    [(.ok reply, 16)] <+: other.transcript := by
  intro reply source other
  have hdecode : Reply.decode reply.frame.kind reply.frame.payload = .ok reply := by cbv
  have hahead : ahead source.items = reply.frame.bytes ++ [0, 0] := by decide +kernel
  have hcut : Reply.parse [0, 0] = (.error none, 2) := rfl
  have hparsed := Reply.parseAll_of_ok (Reply.parse_frame (by decide +kernel) hdecode [0, 0]) 0
  rw [List.drop_left' (Frame.length_bytes _), Reply.parseAll_of_error hcut] at hparsed
  have hwhole := (transcript_eq_parseAll source).1
  rw [hahead, hparsed] at hwhole
  have hmore := (transcript_eq_parseAll source).2.2 other [0, 100, 0, 0, 0, 0] (by decide +kernel) rfl
  exact ⟨hwhole, hmore.1 [(.ok reply, 16)] _ hwhole⟩

end Source

end SegmentClient
