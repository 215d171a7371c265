import SegmentClient.Frame
import SegmentClient.Stream.Buffered

namespace SegmentClient

/-- From `before` to `after` a front part of `bytes` has been added, and all of it if `whole`. -/
def Grows (before bytes after : List UInt8) (whole : Prop) : Prop :=
  ∃ part, part <+: bytes ∧ after = before ++ part ∧ (whole → part = bytes)

namespace Grows

variable {a b c x y : List UInt8} {p : Prop}

theorem all (a x : List UInt8) (p : Prop) : Grows a x (a ++ x) p := ⟨x, List.prefix_rfl, rfl, fun _ => rfl⟩

theorem nothing (a x : List UInt8) (h : ¬ p) : Grows a x a p :=
  ⟨[], List.nil_prefix, (List.append_nil a).symm, fun hp => absurd hp h⟩

theorem trans (h : Grows a x b True) (k : Grows b y c p) : Grows a (x ++ y) c p := by
  obtain ⟨part, _, rfl, hpart⟩ := h
  obtain ⟨more, hmore, rfl, hwhole⟩ := k
  rw [hpart trivial]
  refine ⟨x ++ more, List.prefix_append_right_inj x |>.mpr hmore, by rw [List.append_assoc], ?_⟩
  intro hp
  rw [hwhole hp]

theorem left (h : Grows a x b False) (y : List UInt8) (hp : ¬ p) : Grows a (x ++ y) b p := by
  obtain ⟨part, hpart, rfl, _⟩ := h
  exact ⟨part, hpart.trans (List.prefix_append x y), rfl, fun h => absurd h hp⟩

theorem mono {q : Prop} (h : Grows a x b p) (hq : q → p) : Grows a x b q := by
  obtain ⟨part, hpart, hb, hp⟩ := h
  exact ⟨part, hpart, hb, fun h => hp (hq h)⟩

end Grows

/-- A sink in whose content one can see what has been written to it. -/
class LawfulByteSink (ω : Type) [ByteSink ω] where
  content : ω → List UInt8
  grows : ∀ (out : ω) (bytes : List UInt8), Grows (content out) bytes
    (content (ByteSink.writeAll out bytes).2) ((ByteSink.writeAll out bytes).1 = .ok ())

namespace Sink

theorem grows_writeAll (sink : Sink) (bytes : List UInt8) :
    Grows sink.taken bytes (sink.writeAll bytes).2.taken ((sink.writeAll bytes).1 = .ok ()) := by
  obtain ⟨part, hleft, htaken⟩ := sink.push_takes bytes
  have hnil := sink.left_push bytes
  have hpart : part <+: bytes := ⟨_, hleft⟩
  rcases hpush : sink.push bytes with ⟨after, left, halt?⟩
  simp only [hpush] at hleft htaken hnil
  rcases halt? with _ | _ | kind
  · refine ⟨part, hpart, by simp only [writeAll, hpush, htaken], fun _ => ?_⟩
    rw [← hleft, hnil rfl, List.append_nil]
  · exact ⟨part, hpart, by simp only [writeAll, hpush, htaken], by simp [writeAll, hpush]⟩
  · exact ⟨part, hpart, by simp only [writeAll, hpush, htaken], by simp [writeAll, hpush]⟩

instance : LawfulByteSink Sink := ⟨taken, grows_writeAll⟩

theorem writeAll_of_turns_nil (sink : Sink) (bytes : List UInt8) (h : sink.turns = []) :
    (sink.writeAll bytes).1 = .ok () ∧ (sink.writeAll bytes).2.turns = [] := by
  cases bytes <;> simp [writeAll, push, offer, h]

end Sink

namespace BufferedSink

variable {capacity : Nat}

theorem held_drain (out : BufferedSink capacity) (h : out.drain.1 = .ok ()) : out.drain.2.held = #[] := by
  rw [drain] at h ⊢
  split at h <;> first | rfl | cases h

theorem content_flush (out : BufferedSink capacity) : out.flush.2.content = out.content := by
  have hcontent := out.content_drain
  rcases hdrain : out.drain with ⟨fault | _, after⟩
  · simpa only [flush, hdrain] using hcontent
  · rw [hdrain] at hcontent
    rw [← hcontent]
    simp only [flush, hdrain, Sink.flush]
    split <;> rfl

theorem held_flush (out : BufferedSink capacity) (h : out.flush.1 = .ok ()) : out.flush.2.held = #[] := by
  have hheld := out.held_drain
  rcases hdrain : out.drain with ⟨fault | _, after⟩
  · simp only [flush, hdrain, reduceCtorEq] at h
  · simpa only [flush, hdrain] using hheld (by rw [hdrain])

/-- Bytes go past the buffer only when nothing is held that they would overtake. -/
theorem grows_place (out : BufferedSink capacity) (bytes : List UInt8)
    (h : capacity ≤ bytes.length → out.held = #[]) :
    Grows out.content bytes (out.place bytes).2.content ((out.place bytes).1 = .ok ()) := by
  by_cases hlarge : capacity ≤ bytes.length
  · have hgrows := out.sink.grows_writeAll bytes
    simpa only [place, if_pos hlarge, content, h hlarge, List.append_nil] using hgrows
  · have hcontent : (out.place bytes).2.content = out.content ++ bytes := by
      rw [place, if_neg hlarge, content_hold]
    rw [hcontent]
    exact Grows.all out.content bytes _

theorem content_place_nil (out : BufferedSink capacity) : (out.place []).2.content = out.content := by
  by_cases hlarge : capacity ≤ 0
  · simp only [place, List.length_nil, if_pos hlarge, Sink.writeAll, Sink.push, Sink.offer, content]
  · rw [place, List.length_nil, if_neg hlarge, content_hold, List.append_nil]

theorem grows_writeAll (out : BufferedSink capacity) (bytes : List UInt8) :
    Grows out.content bytes (out.writeAll bytes).2.content ((out.writeAll bytes).1 = .ok ()) := by
  by_cases hsmall : bytes.length < capacity - out.held.size
  · have hcontent : (out.writeAll bytes).2.content = out.content ++ bytes := by
      simp only [writeAll, if_pos hsmall, content_hold]
    rw [hcontent]
    exact Grows.all out.content bytes _
  · by_cases hspill : capacity - out.held.size < bytes.length
    · have hcontent := out.content_drain
      have hheld := out.held_drain
      rcases hdrain : out.drain with ⟨fault | _, after⟩
      · rw [hdrain] at hcontent
        simp only [writeAll, if_neg hsmall, if_pos hspill, hdrain, hcontent]
        exact Grows.nothing out.content bytes (by simp)
      · rw [hdrain] at hcontent hheld
        simp only [writeAll, if_neg hsmall, if_pos hspill, hdrain, ← hcontent]
        exact after.grows_place bytes (fun _ => hheld rfl)
    · simp only [writeAll, if_neg hsmall, if_neg hspill]
      by_cases hnil : bytes = []
      · subst hnil
        rw [content_place_nil]
        simpa only [List.append_nil] using Grows.all out.content [] _
      · have hpos := List.length_pos_iff.mpr hnil
        apply out.grows_place
        intro hlarge
        exact Array.size_eq_zero_iff.mp (by omega)

instance : LawfulByteSink (BufferedSink capacity) := ⟨content, grows_writeAll⟩

end BufferedSink

namespace Frame

variable {ω : Type} [ByteSink ω]

theorem write_of_tooLarge (frame : Frame) (out : ω) (h : maxPayload < frame.payload.length) :
    frame.write out = (.error (.tooLarge frame.payload.length), out) := by
  rw [write, if_pos h]

theorem write_cases (frame : Frame) (out : ω) (h : frame.payload.length ≤ maxPayload) :
    (∃ after, frame.write out = (.ok frame.size, after)) ∨
      ∃ fault after, frame.write out = (.error (.stream fault), after) := by
  rw [write, if_neg (Nat.not_lt.mpr h)]
  split
  · exact Or.inr ⟨_, _, rfl⟩
  · split
    · exact Or.inr ⟨_, _, rfl⟩
    · exact Or.inl ⟨_, rfl⟩

/-- The payload is offered only after the whole header, so that a cut frame is cut at its end. -/
theorem grows_write [LawfulByteSink ω] (frame : Frame) (out : ω) :
    Grows (LawfulByteSink.content out) frame.bytes (LawfulByteSink.content (frame.write out).2)
      (∃ size, (frame.write out).1 = .ok size) := by
  by_cases hlarge : maxPayload < frame.payload.length
  · rw [write_of_tooLarge frame out hlarge]
    exact Grows.nothing _ _ (by simp)
  · have hheader := LawfulByteSink.grows out frame.header
    rw [write, if_neg hlarge, bytes]
    rcases hfirst : ByteSink.writeAll out frame.header with ⟨fault | _, middle⟩
    · rw [hfirst] at hheader
      exact (hheader.mono False.elim).left frame.payload (by simp)
    · rw [hfirst] at hheader
      have hpayload := LawfulByteSink.grows middle frame.payload
      rcases hsecond : ByteSink.writeAll middle frame.payload with ⟨fault | _, after⟩
      · rw [hsecond] at hpayload
        simp only [hsecond]
        exact (hheader.mono (fun _ => rfl)).trans (hpayload.mono (by simp))
      · rw [hsecond] at hpayload
        simp only [hsecond]
        exact (hheader.mono (fun _ => rfl)).trans (hpayload.mono (fun _ => rfl))

def fits (frame : Frame) : Bool := frame.payload.length ≤ maxPayload

theorem fits_eq_false_iff {frame : Frame} : frame.fits = false ↔ maxPayload < frame.payload.length :=
  decide_eq_false_iff_not.trans Nat.not_le

def writeEach : List Frame → ω → List (Except FrameFault Nat) × ω
  | [], out => ([], out)
  | frame :: frames, out =>
    match frame.write out with
    | (result, out) =>
      match writeEach frames out with
      | (results, out) => (result :: results, out)

def receipt (frame : Frame) : Except FrameFault Nat :=
  if frame.fits then .ok frame.size else .error (.tooLarge frame.payload.length)

theorem write_to_plain (frame : Frame) (sink : Sink) (h : sink.turns = []) :
    (frame.write sink).1 = frame.receipt ∧ (frame.write sink).2.turns = [] ∧
      (frame.write sink).2.taken = sink.taken ++ if frame.fits then frame.bytes else [] := by
  by_cases hfits : frame.payload.length ≤ maxPayload
  · obtain ⟨hheader, hmiddle⟩ := sink.writeAll_of_turns_nil frame.header h
    rcases hfirst : sink.writeAll frame.header with ⟨_, middle⟩
    rw [hfirst] at hheader hmiddle
    obtain ⟨hpayload, hafter⟩ := middle.writeAll_of_turns_nil frame.payload hmiddle
    rcases hsecond : middle.writeAll frame.payload with ⟨_, after⟩
    rw [hsecond] at hpayload hafter
    subst hheader hpayload
    have hwrite : frame.write sink = (.ok frame.size, after) := by
      rw [write, if_neg (Nat.not_lt.mpr hfits)]
      simp only [ByteSink.writeAll, hfirst, hsecond, size]
    obtain ⟨part, _, htaken, hwhole⟩ := frame.grows_write sink
    rw [hwhole ⟨_, by rw [hwrite]⟩] at htaken
    change (frame.write sink).2.taken = sink.taken ++ frame.bytes at htaken
    exact ⟨by simp [hwrite, receipt, fits, hfits], by rw [hwrite, hafter], by simp [htaken, fits, hfits]⟩
  · rw [write_of_tooLarge frame sink (Nat.lt_of_not_le hfits)]
    simp [receipt, fits, hfits, h]

theorem writeEach_to_plain (frames : List Frame) (sink : Sink) (h : sink.turns = []) :
    (writeEach frames sink).1 = frames.map receipt ∧
      (writeEach frames sink).2.taken = sink.taken ++ (frames.filter fits).flatMap bytes := by
  induction frames generalizing sink with
  | nil => exact ⟨rfl, (List.append_nil _).symm⟩
  | cons frame frames ih =>
      obtain ⟨hresult, hturns, htaken⟩ := frame.write_to_plain sink h
      obtain ⟨hresults, hrest⟩ := ih (frame.write sink).2 hturns
      refine ⟨?_, ?_⟩
      · rw [writeEach, List.map_cons, ← hresult, ← hresults]
      · rw [writeEach]
        simp only [hrest, htaken, List.append_assoc]
        by_cases hfits : frame.fits = true <;> simp [hfits]

end Frame

end SegmentClient
