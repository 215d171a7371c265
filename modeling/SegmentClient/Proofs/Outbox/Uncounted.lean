import SegmentClient.Proofs.Outbox.Pending

namespace SegmentClient

namespace BufferedSink

variable {capacity : Nat} (out : BufferedSink capacity) (bytes : List UInt8)

theorem ok_or_held_place : (out.place bytes).1 = .ok () ∨ (out.place bytes).2.held = out.held := by
  rw [place]
  split
  · exact Or.inr rfl
  · exact Or.inl rfl

theorem ok_or_held_writeAll :
    (out.writeAll bytes).1 = .ok () ∨ (out.writeAll bytes).2.held.size ≤ out.held.size := by
  have hdrain := out.takes_drain.held
  simp only [writeAll]
  split
  · exact Or.inl rfl
  · split
    · generalize out.drain = drained at hdrain ⊢
      obtain ⟨fault | _, between⟩ := drained
      · exact Or.inr hdrain
      · refine (between.ok_or_held_place bytes).imp_right fun hheld => ?_
        rw [hheld]
        exact hdrain
    · exact (out.ok_or_held_place bytes).imp_right fun hheld => Nat.le_of_eq (congrArg Array.size hheld)

end BufferedSink

namespace Frame

variable {capacity : Nat} (frame : Frame) (out : BufferedSink capacity)

theorem ok_or_held_write : (∃ size, (frame.write out).1 = .ok size) ∨
    (frame.write out).2.held.size ≤ out.held.size + headerSize := by
  have hheader := (out.takes_writeAll frame.header).held
  rw [frame.length_header] at hheader
  rw [write]
  split
  · exact Or.inr (Nat.le_add_right ..)
  · simp only [ByteSink.writeAll]
    generalize out.writeAll frame.header = first at hheader ⊢
    obtain ⟨fault | _, between⟩ := first
    · exact Or.inr hheader
    · have hpayload := between.ok_or_held_writeAll frame.payload
      simp only
      generalize between.writeAll frame.payload = second at hpayload ⊢
      obtain ⟨fault | _, after⟩ := second
      · exact Or.inr (Nat.le_trans (hpayload.resolve_left (by rintro ⟨_, ⟨⟩⟩)) hheader)
      · exact Or.inl ⟨_, rfl⟩

theorem content_write {size : Nat} {after : BufferedSink capacity} (h : frame.write out = (.ok size, after)) :
    after.content = out.content ++ frame.bytes := by
  obtain ⟨part, _, hcontent, hwhole⟩ := frame.grows_write out
  rw [hwhole ⟨size, congrArg Prod.fst h⟩, h] at hcontent
  exact hcontent

end Frame

namespace Outbox

open Operation

variable {σ : Type}

/-- How many bytes are held back that `pending` does not count. -/
def uncounted (box : Outbox σ) : Nat := box.out.held.size - box.pending

variable [Pacing σ]

/-- What an operation that the sink has failed has come to: its frame was cut off in the middle, or the
flush that was due has not brought all to the sink. -/
inductive Broken (box : Outbox σ) (op : Operation) (after : Outbox σ) : Prop
  | cut (pending : after.pending = box.pending)
      (held : after.out.held.size ≤ box.out.held.size + headerSize)
  | unsent (due : Due box op) (pending : after.pending = 0)
      (content : after.out.content = box.out.content ++ op.bytes)

theorem broken_perform (op : Operation) (box : Outbox σ) (h : cameThrough (op.perform box).1 = false) :
    Broken box op (op.perform box).2 := by
  obtain ⟨frame, hframe, hfits⟩ | hfits := op.refused_or_fits
  · rw [(refused_of_not_fits hframe hfits box).1] at h
    cases h
  · cases op with
    | request r =>
        have hheld := r.frame.ok_or_held_write box.out
        obtain ⟨out, hwrite⟩ | ⟨fault, out, hwrite⟩ :=
          r.frame.write_cases box.out (of_decide_eq_true (hfits r.frame rfl))
        · rw [perform, putRequest_of_write hwrite]
          refine .unsent (.request (hfits r.frame rfl)) (pending_flush _) ?_
          rw [content_flush, bytes_of_frame rfl (hfits r.frame rfl), r.frame.content_write box.out hwrite]
        · rw [hwrite] at hheld
          have hput : (box.putRequest r).2 = { box with out } := by rw [putRequest, hwrite]
          rw [perform, hput]
          exact .cut rfl (hheld.resolve_left (by rintro ⟨_, ⟨⟩⟩))
    | append a =>
        have hheld := a.frame.ok_or_held_write box.out
        obtain ⟨out, hwrite⟩ | ⟨fault, out, hwrite⟩ :=
          a.frame.write_cases box.out (of_decide_eq_true (hfits a.frame rfl))
        · have hcontent := a.frame.content_write box.out hwrite
          simp only [perform, putAppend, hwrite] at h ⊢
          split at h
          · rename_i hfull
            rw [if_pos hfull]
            refine .unsent (.append (hfits a.frame rfl) hfull) (pending_flush _) ?_
            rw [content_flush, bytes_of_frame rfl (hfits a.frame rfl), hcontent]
          · cases h
        · rw [hwrite] at hheld
          simp only [perform, putAppend, hwrite]
          exact .cut rfl (hheld.resolve_left (by rintro ⟨_, ⟨⟩⟩))
    | flush =>
        refine .unsent .flush box.pending_flush ?_
        rw [perform, content_flush]
        exact (List.append_nil _).symm
    | ack => cases h

namespace Operation.Effect

variable {op : Operation} {box after : Outbox σ} {result : Except FrameFault Unit}

theorem uncounted_le (h : Effect box op result after) : after.uncounted ≤ box.uncounted := by
  cases h with
  | refused => exact Nat.le_refl _
  | heldBack _ _ pending takes =>
      have hheld := takes.held
      rw [uncounted, uncounted, pending]
      omega
  | sent _ _ flushed =>
      rw [uncounted, flushed.held]
      simp

theorem held_append {a : Append} (h : Effect box op result after) (hop : op = .append a)
    (hfits : a.frame.fits = true) :
    after.out.held = #[] ∨ after.out.held.size < Pacing.blockSize after.pacer + box.uncounted := by
  subst hop
  cases h with
  | refused hframe hno =>
      cases hframe
      cases hno.symm.trans hfits
  | heldBack quiet pacer pending takes =>
      have hheld := takes.held
      rw [load_append hfits] at hheld
      have hroom : ¬ Pacing.blockSize after.pacer ≤ box.pending + a.frame.size := by
        intro hfull
        rw [pacer, told, if_pos hfits] at hfull
        exact quiet (.append hfits hfull)
      rw [uncounted]
      exact Or.inr (by omega)
  | sent _ _ flushed => exact Or.inl flushed.held

end Operation.Effect

theorem uncounted_run_le (ops : List Operation) (box : Outbox σ)
    (h : ∀ result ∈ (run ops box).1, cameThrough result = true) :
    (run ops box).2.uncounted ≤ box.uncounted := by
  induction ops generalizing box with
  | nil => exact Nat.le_refl _
  | cons op ops ih =>
      obtain ⟨hop, hops⟩ := List.forall_mem_cons.mp h
      exact Nat.le_trans (ih (op.perform box).2 hops) (op.effect_of_cameThrough box hop).uncounted_le

structure Tally (box : Outbox σ) (op : Operation) (result : Except FrameFault Unit)
    (after : Outbox σ) : Prop where
  uncounted : cameThrough result = true → after.uncounted ≤ box.uncounted
  flushed : cameThrough result = true → Due box op → after.pending = 0 ∧ after.out.held = #[]
  broken : cameThrough result = false → Broken box op after
  append : ∀ a, op = .append a → result = .ok () →
    after.out.held = #[] ∨ after.out.held.size < Pacing.blockSize after.pacer + box.uncounted

theorem tally_perform (op : Operation) (box : Outbox σ) :
    Tally box op (op.perform box).1 (op.perform box).2 where
  uncounted h := (op.effect_of_cameThrough box h).uncounted_le
  flushed h hdue := by
    have heffect := op.effect_of_cameThrough box h
    exact heffect.flushed (heffect.flushes_iff.mpr hdue)
  broken := broken_perform op box
  append a hop hok := by
    have hfits : a.frame.fits = true := op.fits_of_ok (by rw [hop]; rfl) hok
    exact (op.effect_of_cameThrough box (congrArg cameThrough hok)).held_append hop hfits

/-- In every run, whatever the pacer and the sink do: no more is held back than is pending and than
was uncounted at any earlier point since when nothing has failed. A flush that fails counts nothing as
pending, yet keeps what the sink has not taken; a frame that is cut off leaves up to a header
uncounted. -/
theorem held_run (box : Outbox σ) (before : List Operation) (op : Operation) :
    (box.uncounted = 0 ↔ box.out.held.size ≤ box.pending) ∧
    (∀ earlier later, before = earlier ++ later →
      (∀ result ∈ (run later (run earlier box).2).1, cameThrough result = true) →
      (run before box).2.out.held.size ≤ (run before box).2.pending + (run earlier box).2.uncounted) ∧
    Tally (run before box).2 op (op.perform (run before box).2).1 (op.perform (run before box).2).2 := by
  refine ⟨Nat.sub_eq_zero_iff_le, ?_, tally_perform op (run before box).2⟩
  rintro earlier later hbefore hlater
  have hle := uncounted_run_le later (run earlier box).2 hlater
  rw [← run_append, ← hbefore] at hle
  exact Nat.sub_le_iff_le_add'.mp hle

theorem held_run_unsent :
    let box : Outbox Pacing.Schedule :=
      { out := { sink := { turns := [.fail .timedOut] } }, pacer := { sizes := [100] } }
    let first := .append (.single 1 1 [])
    let second := .append (.single 1 2 [])
    (box.uncounted = 0 ∧ cameThrough (perform .flush (run [first] box).2).1 = false ∧
      Broken (run [first] box).2 .flush (perform .flush (run [first] box).2).2) ∧
    ((run [first, .flush] box).2.uncounted = 52 ∧ (second.perform (run [first, .flush] box).2).1 = .ok () ∧
      (second.perform (run [first, .flush] box).2).2.out.held.size <
        Pacing.blockSize (second.perform (run [first, .flush] box).2).2.pacer +
          (run [first, .flush] box).2.uncounted) ∧
    cameThrough (perform .flush (run [first, .flush, second] box).2).1 = true ∧
      (perform .flush (run [first, .flush, second] box).2).2.out.held = #[] := by
  intro box first second
  obtain ⟨hcounted, _, hfails⟩ := held_run box [first] .flush
  obtain ⟨_, _, hbetween⟩ := held_run box [first, .flush] second
  obtain ⟨_, _, hlater⟩ := held_run box [first, .flush, second] .flush
  have hfailed : cameThrough (perform .flush (run [first] box).2).1 = false := by decide
  have hsecond : (second.perform (run [first, .flush] box).2).1 = .ok () := by decide
  have hcame : cameThrough (perform .flush (run [first, .flush, second] box).2).1 = true := by decide
  have hheld := (hbetween.append _ rfl hsecond).resolve_left (by decide)
  exact ⟨⟨hcounted.mpr (Nat.le_refl 0), hfailed, hfails.broken hfailed⟩, ⟨by decide, hsecond, hheld⟩, hcame,
    (hlater.flushed hcame .flush).2⟩

/-- Of two appends that are held back one is not counted, and together they are more than a block. -/
theorem not_held_le_pending :
    let box : Outbox Pacing.Schedule :=
      { out := { sink := { turns := [.fail .timedOut] } }, pacer := { sizes := [100] } }
    let ops := [.append (.single 1 1 []), .flush, .append (.single 1 2 [])]
    let after := (run ops box).2
    (run ops box).1 = [.ok (), .error (.stream (.ofKind .timedOut)), .ok ()] ∧
    after.pending = 52 ∧ after.out.held.size = 104 ∧ Pacing.blockSize after.pacer = 100 ∧
    ¬ after.out.held.size ≤ after.pending ∧
    ¬ (after.out.held = #[] ∨ after.out.held.size < Pacing.blockSize after.pacer) := by
  decide

end Outbox

end SegmentClient
