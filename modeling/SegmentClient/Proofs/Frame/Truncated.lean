import SegmentClient.Proofs.Frame.Reading
import SegmentClient.Proofs.Sink.Growth
import Mathlib.Data.List.Basic

namespace SegmentClient

namespace Frame

/-- The bytes of whole frames, of which the last may be cut off. -/
def Intact (frames : List Frame) (bytes : List UInt8) : Prop :=
  ∃ (whole : List Frame) (part : List UInt8), (∀ frame ∈ whole, frame ∈ frames) ∧
    (part = [] ∨ ∃ next ∈ frames, part <+: next.bytes) ∧ bytes = whole.flatMap Frame.bytes ++ part

theorem intact_of_prefix {frames : List Frame} {bytes : List UInt8}
    (h : bytes <+: frames.flatMap Frame.bytes) : Intact frames bytes := by
  induction frames generalizing bytes with
  | nil => exact ⟨[], [], nofun, Or.inl rfl, List.prefix_nil.mp h⟩
  | cons first frames ih =>
      rw [List.flatMap_cons] at h
      obtain hcut | ⟨rest, rfl⟩ := List.prefix_or_prefix_of_prefix h (List.prefix_append first.bytes _)
      · exact ⟨[], bytes, nofun, Or.inr ⟨first, List.mem_cons_self .., hcut⟩, rfl⟩
      · obtain ⟨whole, part, hwhole, hpart, rfl⟩ := ih ((List.prefix_append_right_inj first.bytes).mp h)
        refine ⟨first :: whole, part, ?_, ?_, by rw [List.flatMap_cons, List.append_assoc]⟩
        · intro frame hframe
          obtain rfl | hframe := List.mem_cons.mp hframe
          · exact List.mem_cons_self ..
          · exact List.mem_cons_of_mem _ (hwhole frame hframe)
        · refine hpart.imp_right ?_
          rintro ⟨next, hnext, hprefix⟩
          exact ⟨next, List.mem_cons_of_mem _ hnext, hprefix⟩

theorem not_intact {cut behind : Frame} (hcut : cut.fits = true) (hbehind : behind.fits = true)
    (hkind : cut.kind ≠ behind.kind) (hlength : behind.size < cut.payload.length)
    (hpayload : ¬ behind.bytes <+: cut.payload) : ¬ Intact [cut, behind] (cut.header ++ behind.bytes) := by
  have hheader : cut.header ≠ behind.header := by
    intro h
    have hread := cut.readHeader_header (of_decide_eq_true hcut)
    rw [h, behind.readHeader_header (of_decide_eq_true hbehind)] at hread
    exact hkind (Prod.mk.inj (Except.ok.inj hread)).1.symm
  have hsize : (cut.header ++ behind.bytes).length = headerSize + behind.size := by
    rw [List.length_append, length_header, length_bytes]
  rintro ⟨whole, part, hwhole, hpart, hbytes⟩
  cases whole with
  | nil =>
      rw [List.flatMap_nil, List.nil_append] at hbytes
      subst hbytes
      obtain hnil | ⟨next, hnext, hprefix⟩ := hpart
      · rw [hnil, List.length_nil, headerSize] at hsize
        omega
      · obtain rfl | rfl : next = cut ∨ next = behind := by simpa using hnext
        · exact hpayload ((List.prefix_append_right_inj next.header).mp hprefix)
        · have hle := hprefix.length_le
          rw [hsize, length_bytes, headerSize] at hle
          omega
  | cons first whole =>
      rw [List.flatMap_cons, List.append_assoc] at hbytes
      obtain rfl | rfl : first = cut ∨ first = behind := by simpa using hwhole first (List.mem_cons_self ..)
      · have hlong : first.size = headerSize + first.payload.length := rfl
        have hcount := congrArg List.length hbytes
        rw [hsize, List.length_append, length_bytes] at hcount
        omega
      · rw [bytes, List.append_assoc] at hbytes
        exact hheader (List.append_inj hbytes (by rw [length_header, length_header])).1

end Frame

theorem BufferedSink.drain_of_fault {capacity : Nat} (out : BufferedSink capacity) {kind : StreamFault.Kind}
    {turns : List Sink.Turn} (hturns : out.sink.turns = .fail kind :: turns) (hkind : kind ≠ .interrupted)
    (hheld : 0 < out.held.size) : ∃ sink, out.drain = (.error (.ofKind kind), { out with sink }) ∧
      sink.taken = out.sink.taken ∧ sink.turns = turns ∧ sink.flushTurns = out.sink.flushTurns := by
  refine ⟨{ out.sink with turns, calls := out.sink.calls.push ⟨out.held.size, []⟩ }, ?_, ?_, rfl, rfl⟩
  · obtain ⟨sink, held⟩ := out
    replace hturns : sink.turns = .fail kind :: turns := hturns
    rcases hbytes : held.toList with _ | ⟨byte, bytes⟩
    · rw [Array.toList_eq_nil_iff.mp hbytes] at hheld
      cases hheld
    · obtain rfl : held = (byte :: bytes).toArray := by rw [← hbytes]
      simp [drain, Sink.push, Sink.offer, hturns, hkind]
  · simp [Sink.taken]

/-- A frame that does not fit into the buffer loses its payload to the first fault, but not its header. -/
theorem Frame.write_of_fault {capacity : Nat} (frame : Frame) (out : BufferedSink capacity)
    {kind : StreamFault.Kind} {turns : List Sink.Turn} (hempty : out.held = #[])
    (hturns : out.sink.turns = .fail kind :: turns) (hkind : kind ≠ .interrupted) (hfits : frame.fits = true)
    (hroom : headerSize < capacity) (hlarge : capacity < frame.size) :
    ∃ after, frame.write out = (.error (.stream (.ofKind kind)), after) ∧
      after.content = out.sink.taken ++ frame.header ∧ after.sink.turns = turns ∧
      after.sink.flushTurns = out.sink.flushTurns := by
  obtain ⟨sink, held⟩ := out
  obtain rfl : held = #[] := hempty
  have hheader : ({ sink } : BufferedSink capacity).writeAll frame.header =
      (.ok (), { sink, held := frame.header.toArray }) := by
    simp only [BufferedSink.writeAll, frame.length_header, Array.size_empty, Nat.sub_zero, hroom, if_true]
    simp [BufferedSink.hold]
  have hsize : frame.header.toArray.size = headerSize := frame.length_header
  obtain ⟨after, hdrain, htaken, hrest⟩ := BufferedSink.drain_of_fault
    ({ sink, held := frame.header.toArray } : BufferedSink capacity) hturns hkind (hsize ▸ Nat.zero_lt_succ 7)
  refine ⟨{ sink := after, held := frame.header.toArray }, ?_, ?_, hrest⟩
  · rw [size] at hlarge
    rw [write, if_neg (Nat.not_lt.mpr (of_decide_eq_true hfits))]
    simp only [ByteSink.writeAll, hheader]
    simp only [BufferedSink.writeAll, hsize]
    rw [if_neg (by omega), if_pos (by omega), hdrain]
  · rw [BufferedSink.content, htaken]

end SegmentClient
