import SegmentClient.Frame
import SegmentClient.Proofs.Sink.Growth

namespace SegmentClient

namespace Sink

theorem flushes_writeAll (sink : Sink) (bytes : List UInt8) :
    (sink.writeAll bytes).2.flushes = sink.flushes := by
  have hpush : (sink.push bytes).1.flushes = sink.flushes := rfl
  rw [writeAll]
  generalize sink.push bytes = push at hpush ⊢
  obtain ⟨after, left, _ | _ | kind⟩ := push <;> exact hpush

end Sink

namespace BufferedSink

variable {capacity : Nat} {a b c : BufferedSink capacity}

/-- At most so many bytes more are held back, and the sink has not been flushed. -/
structure Takes (before : BufferedSink capacity) (count : Nat) (after : BufferedSink capacity) : Prop where
  held : after.held.size ≤ before.held.size + count
  flushes : after.sink.flushes = before.sink.flushes

theorem Takes.trans {m n : Nat} (h : Takes a m b) (k : Takes b n c) : Takes a (m + n) c where
  held := by
    have hfirst := h.held
    have hsecond := k.held
    omega
  flushes := k.flushes.trans h.flushes

theorem Takes.mono {m n : Nat} (h : Takes a m b) (hle : m ≤ n) : Takes a n b where
  held := by
    have hheld := h.held
    omega
  flushes := h.flushes

theorem takes_drain (out : BufferedSink capacity) : out.Takes 0 out.drain.2 := by
  obtain ⟨part, hleft, _⟩ := out.sink.push_takes out.held.toList
  have hsize : (out.sink.push out.held.toList).2.1.length ≤ out.held.size := by
    have hlength := congrArg List.length hleft
    have hheld := out.held.length_toList
    rw [List.length_append] at hlength
    omega
  have hflushes : (out.sink.push out.held.toList).1.flushes = out.sink.flushes := rfl
  rw [drain]
  generalize out.sink.push out.held.toList = push at hsize hflushes ⊢
  obtain ⟨after, left, _ | _ | kind⟩ := push
  · exact ⟨Nat.zero_le _, hflushes⟩
  · exact ⟨by simpa using hsize, hflushes⟩
  · exact ⟨by simpa using hsize, hflushes⟩

theorem takes_place (out : BufferedSink capacity) (bytes : List UInt8) :
    out.Takes bytes.length (out.place bytes).2 := by
  rw [place]
  split
  · exact ⟨Nat.le_add_right .., out.sink.flushes_writeAll bytes⟩
  · exact ⟨Nat.le_of_eq (out.size_held_hold bytes), rfl⟩

theorem takes_writeAll (out : BufferedSink capacity) (bytes : List UInt8) :
    out.Takes bytes.length (out.writeAll bytes).2 := by
  have hdrain := out.takes_drain
  simp only [writeAll]
  split
  · exact ⟨Nat.le_of_eq (out.size_held_hold bytes), rfl⟩
  · split
    · generalize out.drain = drained at hdrain ⊢
      obtain ⟨fault | _, between⟩ := drained
      · exact hdrain.mono (Nat.zero_le _)
      · exact (hdrain.trans (between.takes_place bytes)).mono (Nat.le_of_eq (Nat.zero_add _))
    · exact out.takes_place bytes

theorem flushes_flush (out : BufferedSink capacity) (h : out.flush.1 = .ok ()) :
    out.flush.2.sink.flushes = out.sink.flushes + 1 := by
  have hdrain := out.takes_drain.flushes
  rw [flush] at h ⊢
  generalize out.drain = drained at hdrain h ⊢
  obtain ⟨fault | _, between⟩ := drained
  · cases h
  · exact between.sink.flushes_flush.trans (congrArg (· + 1) hdrain)

end BufferedSink

theorem Frame.takes_write {capacity : Nat} (frame : Frame) (out : BufferedSink capacity) :
    out.Takes frame.size (frame.write out).2 := by
  by_cases hlarge : maxPayload < frame.payload.length
  · rw [write_of_tooLarge frame out hlarge]
    exact ⟨Nat.le_add_right .., rfl⟩
  · have hheader := out.takes_writeAll frame.header
    rw [frame.length_header] at hheader
    rw [write, if_neg hlarge, size]
    simp only [ByteSink.writeAll]
    generalize out.writeAll frame.header = first at hheader ⊢
    obtain ⟨fault | _, between⟩ := first
    · exact hheader.mono (Nat.le_add_right ..)
    · have hpayload := between.takes_writeAll frame.payload
      simp only
      generalize between.writeAll frame.payload = second at hpayload ⊢
      obtain ⟨fault | _, after⟩ := second
      · exact hheader.trans hpayload
      · exact hheader.trans hpayload

end SegmentClient
