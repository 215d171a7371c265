import SegmentClient.Outbox
import SegmentClient.Proofs.Sink.Growth

namespace SegmentClient

namespace Sink

/-- Interruptions apart, no fault lies ahead: every write call takes something, every flush succeeds. -/
structure Sturdy (sink : Sink) : Prop where
  turns : ∀ turn ∈ sink.turns, turn = .fail .interrupted ∨ ∃ most, turn = .take (most + 1)
  flushTurns : ∀ turn ∈ sink.flushTurns, turn = none

/-- An operation that led from one sink to another has lost nothing that was taken; with a sturdy sink
and if `fits`, it succeeded and the sink is sturdy still. -/
structure Leads {ε α : Type} (before : Sink) (fits : Prop) (result : Except ε α) (after : Sink) : Prop where
  taken : before.taken <+: after.taken
  succeeds : before.Sturdy → fits → (∃ value, result = .ok value) ∧ after.Sturdy

namespace Leads

variable {ε α ε' α' : Type} {fits : Prop} {before between after : Sink}

theorem same (sink : Sink) (value : α) : Leads sink fits (.ok value : Except ε α) sink :=
  ⟨List.prefix_rfl, fun h _ => ⟨⟨value, rfl⟩, h⟩⟩

theorem refused (sink : Sink) (result : Except ε α) (h : ¬ fits) : Leads sink fits result sink :=
  ⟨List.prefix_rfl, fun _ hfits => absurd hfits h⟩

theorem ok {value : α} (h : Leads before fits (.ok value : Except ε α) after) (value' : α') :
    Leads before fits (.ok value' : Except ε' α') after :=
  ⟨h.taken, fun hsturdy hfits => ⟨⟨value', rfl⟩, (h.succeeds hsturdy hfits).2⟩⟩

theorem error {fault : ε} (h : Leads before fits (.error fault : Except ε α) after)
    (result : Except ε' α') : Leads before fits result after := by
  refine ⟨h.taken, fun hsturdy hfits => ?_⟩
  obtain ⟨⟨value, hvalue⟩, _⟩ := h.succeeds hsturdy hfits
  cases hvalue

theorem trans {value : α} {result : Except ε' α'} (h : Leads before fits (.ok value : Except ε α) between)
    (k : Leads between fits result after) : Leads before fits result after :=
  ⟨h.taken.trans k.taken, fun hsturdy hfits => k.succeeds (h.succeeds hsturdy hfits).2 hfits⟩

theorem mono {fits' : Prop} {result : Except ε α} (h : Leads before fits result after) (hfits : fits' → fits) :
    Leads before fits' result after :=
  ⟨h.taken, fun hsturdy k => h.succeeds hsturdy (hfits k)⟩

end Leads

theorem offer_of_sturdy (turns : List Turn) (calls : Array Call) (bytes : List UInt8)
    (h : ∀ turn ∈ turns, turn = .fail .interrupted ∨ ∃ most, turn = .take (most + 1)) :
    (offer turns calls bytes).halt? = none ∧ (offer turns calls bytes).turns ⊆ turns := by
  fun_induction offer turns calls bytes with
  | case1 => exact ⟨rfl, List.Subset.refl _⟩
  | case2 => exact ⟨rfl, List.Subset.refl _⟩
  | case3 turns calls bytes hne ih =>
      obtain ⟨hhalt, hturns⟩ := ih fun turn hturn => h turn (List.mem_cons_of_mem _ hturn)
      exact ⟨hhalt, List.subset_cons_of_subset _ hturns⟩
  | case4 kind turns calls bytes hne hkind =>
      obtain hturn | ⟨most, hturn⟩ := h _ (List.mem_cons_self ..)
      · exact absurd (Turn.fail.inj hturn) hkind
      · cases hturn
  | case5 =>
      obtain hturn | ⟨most, hturn⟩ := h _ (List.mem_cons_self ..)
      · cases hturn
      · cases hturn
  | case6 most turns calls bytes hne ih =>
      obtain ⟨hhalt, hturns⟩ := ih fun turn hturn => h turn (List.mem_cons_of_mem _ hturn)
      exact ⟨hhalt, List.subset_cons_of_subset _ hturns⟩

theorem push_of_sturdy {sink : Sink} (h : sink.Sturdy) (bytes : List UInt8) :
    (sink.push bytes).2.2 = none ∧ (sink.push bytes).1.Sturdy := by
  obtain ⟨hhalt, hturns⟩ := offer_of_sturdy sink.turns sink.calls bytes h.turns
  exact ⟨hhalt, fun turn hturn => h.turns turn (hturns hturn), h.flushTurns⟩

theorem leads_push (sink : Sink) (bytes : List UInt8) :
    Leads sink True (match (sink.push bytes).2.2 with | none => .ok () | some halt => .error halt)
      (sink.push bytes).1 := by
  obtain ⟨part, _, htaken⟩ := sink.push_takes bytes
  refine ⟨⟨part, htaken.symm⟩, fun hsturdy _ => ?_⟩
  obtain ⟨hhalt, hafter⟩ := push_of_sturdy hsturdy bytes
  exact ⟨⟨(), by rw [hhalt]⟩, hafter⟩

theorem leads_writeAll (sink : Sink) (bytes : List UInt8) :
    Leads sink True (sink.writeAll bytes).1 (sink.writeAll bytes).2 := by
  have hpush := sink.leads_push bytes
  rw [writeAll]
  generalize sink.push bytes = push at hpush ⊢
  obtain ⟨after, left, _ | _ | kind⟩ := push
  · exact hpush.ok ()
  · exact hpush.error _
  · exact hpush.error _

theorem leads_flush (sink : Sink) : Leads sink True sink.flush.1 sink.flush.2 := by
  rw [flush]
  split
  · rename_i hnil
    exact ⟨List.prefix_rfl, fun h _ => ⟨⟨(), rfl⟩, h.turns, h.flushTurns⟩⟩
  · rename_i turns hturns
    refine ⟨List.prefix_rfl, fun h _ => ⟨⟨(), rfl⟩, h.turns, fun turn hturn => ?_⟩⟩
    exact h.flushTurns turn (by rw [hturns]; exact List.mem_cons_of_mem _ hturn)
  · rename_i kind turns hturns
    refine ⟨List.prefix_rfl, fun h _ => ?_⟩
    cases h.flushTurns (some kind) (by rw [hturns]; exact List.mem_cons_self ..)

end Sink

namespace BufferedSink

variable {capacity : Nat}

theorem leads_drain (out : BufferedSink capacity) :
    out.sink.Leads True out.drain.1 out.drain.2.sink := by
  have hpush := out.sink.leads_push out.held.toList
  rw [drain]
  generalize out.sink.push out.held.toList = push at hpush ⊢
  obtain ⟨after, left, _ | _ | kind⟩ := push
  · exact hpush.ok ()
  · exact hpush.error _
  · exact hpush.error _

theorem leads_place (out : BufferedSink capacity) (bytes : List UInt8) :
    out.sink.Leads True (out.place bytes).1 (out.place bytes).2.sink := by
  rw [place]
  split
  · exact out.sink.leads_writeAll bytes
  · exact .same out.sink ()

theorem leads_writeAll (out : BufferedSink capacity) (bytes : List UInt8) :
    out.sink.Leads True (out.writeAll bytes).1 (out.writeAll bytes).2.sink := by
  have hdrain := out.leads_drain
  simp only [writeAll]
  split
  · exact .same out.sink ()
  · split
    · generalize out.drain = drained at hdrain ⊢
      obtain ⟨fault | _, between⟩ := drained
      · exact hdrain.error _
      · exact hdrain.trans (between.leads_place bytes)
    · exact out.leads_place bytes

theorem leads_flush (out : BufferedSink capacity) : out.sink.Leads True out.flush.1 out.flush.2.sink := by
  have hdrain := out.leads_drain
  rw [flush]
  generalize out.drain = drained at hdrain ⊢
  obtain ⟨fault | _, between⟩ := drained
  · exact hdrain.error _
  · exact hdrain.trans between.sink.leads_flush

end BufferedSink

theorem Frame.leads_write {capacity : Nat} (frame : Frame) (out : BufferedSink capacity) :
    out.sink.Leads (frame.fits = true) (frame.write out).1 (frame.write out).2.sink := by
  by_cases hfits : frame.payload.length ≤ maxPayload
  · have hheader := out.leads_writeAll frame.header
    rw [write, if_neg (Nat.not_lt.mpr hfits)]
    simp only [ByteSink.writeAll]
    generalize out.writeAll frame.header = first at hheader ⊢
    obtain ⟨fault | _, between⟩ := first
    · exact (hheader.error _).mono fun _ => trivial
    · have hpayload := between.leads_writeAll frame.payload
      simp only
      generalize between.writeAll frame.payload = second at hpayload ⊢
      obtain ⟨fault | _, after⟩ := second
      · exact (hheader.trans (hpayload.error _)).mono fun _ => trivial
      · exact (hheader.trans (hpayload.ok _)).mono fun _ => trivial
  · rw [write_of_tooLarge frame out (Nat.lt_of_not_le hfits)]
    exact .refused out.sink _ (by simp [fits, hfits])

namespace Outbox

variable {σ : Type}

theorem leads_flush (box : Outbox σ) : box.out.sink.Leads True box.flush.1 box.flush.2.out.sink := by
  have hflush := box.out.leads_flush
  rw [flush]
  generalize box.out.flush = flushed at hflush ⊢
  obtain ⟨fault | _, after⟩ := flushed
  · exact hflush.error _
  · exact hflush.ok ()

theorem leads_putRequest (box : Outbox σ) (request : Request) :
    box.out.sink.Leads (request.frame.fits = true) (box.putRequest request).1
      (box.putRequest request).2.out.sink := by
  have hwrite := request.frame.leads_write box.out
  rw [putRequest]
  generalize request.frame.write box.out = written at hwrite ⊢
  obtain ⟨fault | size, between⟩ := written
  · exact hwrite.error _
  · exact hwrite.trans ((leads_flush { box with out := between }).mono fun _ => trivial)

theorem leads_putAppend [Pacing σ] (box : Outbox σ) (append : Append) :
    box.out.sink.Leads (append.frame.fits = true) (box.putAppend append).1
      (box.putAppend append).2.out.sink := by
  have hwrite := append.frame.leads_write box.out
  rw [putAppend]
  generalize append.frame.write box.out = written at hwrite ⊢
  obtain ⟨fault | size, between⟩ := written
  · exact hwrite.error _
  · simp only
    split
    · exact hwrite.trans ((leads_flush ⟨between, _, _⟩).mono fun _ => trivial)
    · exact hwrite.ok ()

end Outbox

end SegmentClient
