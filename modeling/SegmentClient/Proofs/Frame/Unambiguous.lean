import SegmentClient.Proofs.Frame.Reading
import SegmentClient.Proofs.Sink.Growth
import Mathlib.Data.List.Basic

namespace SegmentClient

open Wire

namespace Frame

theorem eq_of_bytes_append {f g : Frame} {x y : List UInt8} (hf : f.payload.length ≤ maxPayload)
    (hg : g.payload.length ≤ maxPayload) (h : f.bytes ++ x = g.bytes ++ y) : f = g ∧ x = y := by
  simp only [bytes, List.append_assoc] at h
  obtain ⟨hheader, hrest⟩ := List.append_inj h (by rw [f.length_header, g.length_header])
  have hread := f.readHeader_header hf
  rw [hheader, g.readHeader_header hg] at hread
  obtain ⟨hkind, hlength⟩ := Prod.mk.inj (Except.ok.inj hread)
  obtain ⟨hpayload, htail⟩ := List.append_inj hrest hlength.symm
  cases f
  cases g
  exact ⟨by rw [Frame.mk.injEq]; exact ⟨hkind.symm, hpayload⟩, htail⟩

theorem prefix_of_bytes_prefix {fs gs : List Frame} (hfs : ∀ f ∈ fs, f.payload.length ≤ maxPayload)
    (hgs : ∀ g ∈ gs, g.payload.length ≤ maxPayload) (h : fs.flatMap bytes <+: gs.flatMap bytes) :
    fs <+: gs := by
  induction fs generalizing gs with
  | nil => exact List.nil_prefix
  | cons f fs ih =>
      obtain ⟨tail, htail⟩ := h
      cases gs with
      | nil =>
          have hlength := congrArg List.length htail
          simp only [List.flatMap_cons, List.flatMap_nil, List.length_append, f.length_bytes, size, headerSize,
            List.length_nil] at hlength
          omega
      | cons g gs =>
          rw [List.flatMap_cons, List.flatMap_cons, List.append_assoc] at htail
          obtain ⟨rfl, hrest⟩ := eq_of_bytes_append (hfs f (List.mem_cons_self ..))
            (hgs g (List.mem_cons_self ..)) htail
          refine List.cons_prefix_cons.mpr ⟨rfl, ih ?_ ?_ ⟨tail, hrest⟩⟩
          · exact fun f' hf' => hfs f' (List.mem_cons_of_mem _ hf')
          · exact fun g' hg' => hgs g' (List.mem_cons_of_mem _ hg')

end Frame

inductive Outgoing
  | request (request : Request)
  | append (append : Append)
deriving DecidableEq, Repr

namespace Outgoing

def frame : Outgoing → Frame
  | request r => r.frame
  | append a => a.frame

def build? : (kind : CommandKind) → kind.layout.Values → Option Outgoing
  | .hello, (high, low, ()) => some (request (.hello ⟨high, low⟩))
  | .keepAlive, () => some (request .keepAlive)
  | .setupAppend, (id, writer, segment, token, ()) =>
    some (request (.setupAppend ⟨id, writer, segment, token⟩))
  | .appendBlockEnd, (writer, number, count, data, id, ()) =>
    some (append ⟨writer, number, count, data, id⟩)
  | _, _ => none

def ofFrame? (frame : Frame) : Option Outgoing :=
  match frame.kind.layout.decode frame.payload with
  | .error _ => none
  | .ok (values, _) => build? frame.kind values

theorem ofFrame?_frame (command : Outgoing) (h : command.frame.payload.length ≤ maxPayload) :
    ofFrame? command.frame = some command := by
  have hread : ∀ (layout : Layout) (values : layout.Values), (layout.encode values).length ≤ maxPayload →
      layout.decode (layout.encode values) = .ok (values, []) := by
    intro layout values hlength
    have hrange := layout.inRange_of_length values (Nat.le_trans hlength (by decide))
    simpa using layout.decode_encode values [] hrange
  obtain r | a := command
  · have hvalues := hread r.kind.layout r.values h
    simp only [ofFrame?, frame, Request.frame, Request.payload, hvalues]
    cases r <;> rfl
  · have hvalues := hread CommandKind.appendBlockEnd.layout a.values h
    simp only [ofFrame?, frame, Append.frame, Append.payload, hvalues]
    rfl

def sent (commands : List Outgoing) : List UInt8 :=
  (Frame.writeEach (commands.map frame) ({} : Sink)).2.taken

theorem sent_eq {commands : List Outgoing} (h : ∀ c ∈ commands, c.frame.payload.length ≤ maxPayload) :
    sent commands = (commands.map frame).flatMap Frame.bytes := by
  have hfits : (commands.map frame).filter Frame.fits = commands.map frame := by
    rw [List.filter_eq_self]
    simpa [Frame.fits] using h
  rw [sent, (Frame.writeEach_to_plain _ _ rfl).2, hfits]
  rfl

theorem prefix_of_frames_prefix {first second : List Outgoing}
    (hfirst : ∀ c ∈ first, c.frame.payload.length ≤ maxPayload)
    (hsecond : ∀ c ∈ second, c.frame.payload.length ≤ maxPayload)
    (h : first.map frame <+: second.map frame) : first <+: second := by
  have hread : ∀ {commands : List Outgoing}, (∀ c ∈ commands, c.frame.payload.length ≤ maxPayload) →
      (commands.map frame).filterMap ofFrame? = commands := by
    intro commands hfits
    have hsame : commands.filterMap (ofFrame? ∘ frame) = commands.filterMap some :=
      List.filterMap_congr fun c hc => ofFrame?_frame c (hfits c hc)
    rw [List.filterMap_map, hsame, List.filterMap_some]
  rw [← hread hfirst, ← hread hsecond]
  exact h.filterMap ofFrame?

/-- Of two lists of commands within the limit, the bytes sent for one are a front part of those sent for
the other exactly if the commands are; so the same bytes are sent for the same commands only. -/
theorem sent_prefix_iff (first second : List Outgoing)
    (hfirst : ∀ c ∈ first, c.frame.payload.length ≤ maxPayload)
    (hsecond : ∀ c ∈ second, c.frame.payload.length ≤ maxPayload) :
    (sent first <+: sent second ↔ first <+: second) ∧ (sent first = sent second ↔ first = second) := by
  have hfront : ∀ {cs ds : List Outgoing}, (∀ c ∈ cs, c.frame.payload.length ≤ maxPayload) →
      (∀ d ∈ ds, d.frame.payload.length ≤ maxPayload) → sent cs <+: sent ds → cs <+: ds := by
    intro cs ds hcs hds h
    rw [sent_eq hcs, sent_eq hds] at h
    apply prefix_of_frames_prefix hcs hds
    exact Frame.prefix_of_bytes_prefix (by simpa using hcs) (by simpa using hds) h
  refine ⟨⟨hfront hfirst hsecond, ?_⟩, ?_, fun h => h ▸ rfl⟩
  · rintro ⟨rest, rfl⟩
    rw [sent_eq hfirst, sent_eq hsecond, List.map_append, List.flatMap_append]
    exact List.prefix_append _ _
  · intro h
    have hforth := hfront hfirst hsecond (h ▸ List.prefix_rfl)
    have hback := hfront hsecond hfirst (h ▸ List.prefix_rfl)
    exact hforth.eq_of_length_le hback.length_le

/-- Two openings of a session whose texts are alike but for where the first of them ends. -/
theorem sent_prefix_iff_texts :
    let first := [request (.setupAppend ⟨1, 2, "ab", ""⟩), append (Append.single 2 1 [0, 100])]
    let second := [request (.setupAppend ⟨1, 2, "a", "b"⟩), append (Append.single 2 1 [0, 100])]
    (∀ c ∈ first, c.frame.payload.length ≤ maxPayload) ∧ (∀ c ∈ second, c.frame.payload.length ≤ maxPayload) ∧
    (sent first).length = (sent second).length ∧ ¬ sent first <+: sent second ∧
    sent first <+: sent (first ++ [request .keepAlive]) := by
  intro first second
  have hfirst : ∀ c ∈ first, c.frame.payload.length ≤ maxPayload := by decide +kernel
  have hsecond : ∀ c ∈ second, c.frame.payload.length ≤ maxPayload := by decide +kernel
  have hmore : ∀ c ∈ first ++ [request .keepAlive], c.frame.payload.length ≤ maxPayload := by decide +kernel
  refine ⟨hfirst, hsecond, by decide +kernel, ?_, ?_⟩
  · exact (sent_prefix_iff first second hfirst hsecond).1.not.mpr (by decide)
  · exact (sent_prefix_iff first _ hfirst hmore).1.mpr (List.prefix_append first _)

end Outgoing

end SegmentClient
