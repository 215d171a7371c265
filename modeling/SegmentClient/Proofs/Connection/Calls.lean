import SegmentClient.Connection.Basic
import SegmentClient.Proofs.Outbox.Run
import SegmentClient.Proofs.Sink.Sturdy

namespace SegmentClient

/-- Nothing is held back. -/
structure Outbox.Drained {σ : Type} (box : Outbox σ) : Prop where
  held : box.out.held = #[]
  pending : box.pending = 0

namespace Outbox

variable {σ : Type}

theorem drained_flush (box : Outbox σ) (h : box.flush.1 = .ok ()) : box.flush.2.Drained :=
  ⟨box.held_flush h, box.pending_flush⟩

theorem drained_putRequest (box : Outbox σ) (request : Request) (h : (box.putRequest request).1 = .ok ()) :
    (box.putRequest request).2.Drained := by
  rw [putRequest] at h ⊢
  split at h
  · cases h
  · exact drained_flush _ h

end Outbox

namespace Connection

variable {σ : Type} [Pacing σ]

theorem writeEach_of_error {append : Append} {box between : Outbox σ} {fault : FrameFault}
    (h : box.putAppend append = (.error fault, between)) (appends : List Append) :
    writeEach (append :: appends) box = (.error fault, between) := by
  simp only [writeEach, CommandWriter.putAppend, h]

theorem writeEach_of_ok {append : Append} {box between : Outbox σ}
    (h : box.putAppend append = (.ok (), between)) (appends : List Append) :
    writeEach (append :: appends) box = writeEach appends between := by
  simp only [writeEach, CommandWriter.putAppend, h]

theorem grows_writeEach (appends : List Append) (box : Outbox σ) :
    Grows box.out.content (appends.flatMap (·.frame.bytes)) (writeEach appends box).2.out.content
      ((writeEach appends box).1 = .ok ()) := by
  induction appends generalizing box with
  | nil =>
      have hcontent : (writeEach [] box).2.out.content = box.out.content ++ [] := by
        rw [List.append_nil]
        exact box.content_flush
      rw [List.flatMap_nil, hcontent]
      exact Grows.all box.out.content [] _
  | cons append appends ih =>
      have happend := box.grows_putAppend append
      rw [List.flatMap_cons]
      rcases hput : box.putAppend append with ⟨fault | _, between⟩
      · rw [hput] at happend
        rw [writeEach_of_error hput]
        exact (happend.mono False.elim).left _ nofun
      · rw [hput] at happend
        rw [writeEach_of_ok hput]
        exact (happend.mono fun _ => rfl).trans (ih between)

theorem leads_writeEach (appends : List Append) (box : Outbox σ) :
    box.out.sink.Leads (∀ append ∈ appends, append.frame.fits = true) (writeEach appends box).1
      (writeEach appends box).2.out.sink := by
  induction appends generalizing box with
  | nil => exact box.leads_flush.mono fun _ => trivial
  | cons append appends ih =>
      have happend := (box.leads_putAppend append).mono fun
        (h : ∀ a ∈ append :: appends, a.frame.fits = true) => h append (List.mem_cons_self ..)
      rcases hput : box.putAppend append with ⟨fault | _, between⟩
      · rw [hput] at happend
        rw [writeEach_of_error hput]
        exact happend.error _
      · rw [hput] at happend
        rw [writeEach_of_ok hput]
        exact happend.trans ((ih between).mono fun h a ha => h a (List.mem_cons_of_mem _ ha))

theorem drained_writeEach (appends : List Append) (box : Outbox σ)
    (h : (writeEach appends box).1 = .ok ()) :
    (writeEach appends box).2.Drained ∧ ∀ append ∈ appends, append.frame.fits = true := by
  induction appends generalizing box with
  | nil => exact ⟨box.drained_flush h, nofun⟩
  | cons append appends ih =>
      rcases hput : box.putAppend append with ⟨fault | _, between⟩
      · rw [writeEach_of_error hput] at h
        cases h
      · rw [writeEach_of_ok hput] at h ⊢
        obtain ⟨hdrained, hfits⟩ := ih between h
        have hok : (Outbox.Operation.append append |>.perform box).1 = .ok () := congrArg Prod.fst hput
        have hfirst := Outbox.Operation.fits_of_ok _ rfl hok
        exact ⟨hdrained, List.forall_mem_cons.mpr ⟨hfirst, hfits⟩⟩

namespace Call

def frames : Call → List Frame
  | request r => [r.frame]
  | appends rs => rs.map Append.frame

def bytes (call : Call) : List UInt8 := call.frames.flatMap Frame.bytes

theorem grows_run (call : Call) (box : Outbox σ) :
    Grows box.out.content call.bytes (call.run box).2.out.content ((call.run box).1 = .ok ()) := by
  cases call with
  | request r =>
      rw [bytes, frames, List.flatMap_singleton]
      exact box.grows_putRequest r
  | appends rs =>
      rw [bytes, frames, List.flatMap_map]
      exact grows_writeEach rs box

theorem leads_run (call : Call) (box : Outbox σ) :
    box.out.sink.Leads (∀ frame ∈ call.frames, frame.fits = true) (call.run box).1
      (call.run box).2.out.sink := by
  cases call with
  | request r => exact (box.leads_putRequest r).mono fun h => h r.frame (List.mem_singleton_self _)
  | appends rs => exact (leads_writeEach rs box).mono fun h r hr => h r.frame (List.mem_map_of_mem hr)

theorem drained_run (call : Call) (box : Outbox σ) (h : (call.run box).1 = .ok ()) :
    (call.run box).2.Drained ∧ ∀ frame ∈ call.frames, frame.fits = true := by
  cases call with
  | request r =>
      have hok : (Outbox.Operation.request r |>.perform box).1 = .ok () := h
      have hfits := Outbox.Operation.fits_of_ok _ rfl hok
      exact ⟨box.drained_putRequest r h, List.forall_mem_singleton.mpr hfits⟩
  | appends rs =>
      obtain ⟨hdrained, hfits⟩ := drained_writeEach rs box h
      exact ⟨hdrained, List.forall_mem_map.mpr hfits⟩

/-- With nothing held back before, what the sink has taken of a call is a front part of the call's
frames; if the call succeeds it is all of them, and nothing is held back again. -/
theorem run_of_drained (call : Call) {box : Outbox σ} (h : box.Drained) :
    (∃ part, part <+: call.bytes ∧ (call.run box).2.out.sink.taken = box.out.sink.taken ++ part) ∧
    ((call.run box).1 = .ok () → (call.run box).2.Drained ∧
      (call.run box).2.out.sink.taken = box.out.sink.taken ++ call.bytes) := by
  obtain ⟨part, hpart, hcontent, hwhole⟩ := call.grows_run box
  obtain ⟨more, hmore⟩ := (call.leads_run box).taken
  rw [BufferedSink.content, BufferedSink.content, h.held, ← hmore, List.append_nil, List.append_assoc,
    List.append_cancel_left_eq] at hcontent
  constructor
  · refine ⟨more, List.IsPrefix.trans ?_ hpart, hmore.symm⟩
    exact ⟨_, hcontent⟩
  · intro hok
    have hdrained := (call.drained_run box hok).1
    refine ⟨hdrained, ?_⟩
    rw [hdrained.held, List.append_nil, hwhole hok] at hcontent
    rw [← hmore, hcontent]

theorem taken_of_sturdy (call : Call) {box : Outbox σ} (hsturdy : box.out.sink.Sturdy)
    (hfits : ∀ frame ∈ call.frames, frame.fits = true) :
    (call.run box).1 = .ok () ∧ (call.run box).2.out.sink.taken = box.out.content ++ call.bytes := by
  obtain ⟨⟨_, hok⟩, _⟩ := (call.leads_run box).succeeds hsturdy hfits
  obtain ⟨part, _, hcontent, hwhole⟩ := call.grows_run box
  rw [BufferedSink.content, (call.drained_run box hok).1.held, List.append_nil, hwhole hok] at hcontent
  exact ⟨hok, hcontent⟩

end Call

end Connection

end SegmentClient
