import SegmentClient.Proofs.Outbox.Content
import SegmentClient.Proofs.Sink.Backlog
import SegmentClient.Proofs.Sink.Sturdy
import Mathlib.Data.List.Induction
import Mathlib.Algebra.Ring.Nat

namespace SegmentClient

def Pacing.Observed.appends {σ : Type} (pacer : Observed σ) : List (Int64 × Nat) :=
  pacer.calls.toList.filterMap fun
    | .append eventNumber size => some (eventNumber, size)
    | .ack _ _ => none

namespace Outbox

variable {σ : Type}

structure Flushed (before after : Outbox σ) : Prop where
  pending : after.pending = 0
  held : after.out.held = #[]
  flushes : after.out.sink.flushes = before.out.sink.flushes + 1

theorem pacer_flush (box : Outbox σ) : box.flush.2.pacer = box.pacer := by
  rw [flush]
  split <;> rfl

theorem flushed_flush (box : Outbox σ) (h : box.flush.1 = .ok ()) : Flushed box box.flush.2 := by
  refine ⟨box.pending_flush, box.held_flush h, ?_⟩
  have hflushes := box.out.flushes_flush
  rcases hflush : box.out.flush with ⟨fault | _, out⟩
  · simp only [flush, hflush, reduceCtorEq] at h
  · simpa only [flush, hflush] using hflushes (by rw [hflush])

namespace Operation

def accepted? : Operation → Option Append
  | append a => if a.frame.fits then some a else none
  | request _ | flush | ack _ => none

def load (op : Operation) : Nat := op.accepted?.elim 0 (·.frame.size)

theorem refused_or_fits (op : Operation) : (∃ frame, op.frame? = some frame ∧ frame.fits = false) ∨
    ∀ frame, op.frame? = some frame → frame.fits = true := by
  rw [or_iff_not_imp_left]
  intro h frame hframe
  rw [← Bool.not_eq_false]
  exact fun hfits => h ⟨frame, hframe, hfits⟩

theorem load_append {a : Append} (h : a.frame.fits = true) : (append a).load = a.frame.size := by
  rw [load, accepted?, if_pos h, Option.elim_some]

variable [Pacing σ]

def told : Operation → σ → σ
  | append a, pacer => if a.frame.fits then Pacing.noteAppend pacer a.eventNumber a.frame.size else pacer
  | ack n, pacer => (Pacing.noteAck pacer n).1
  | request _, pacer | flush, pacer => pacer

/-- The sink has been flushed. -/
def Flushes (op : Operation) (box : Outbox σ) : Prop :=
  box.out.sink.flushes < (op.perform box).2.out.sink.flushes

/-- What calls for a flush: one that is asked for, a request, or an append that fills the block. -/
inductive Due (box : Outbox σ) : Operation → Prop
  | flush : Due box .flush
  | request {r : Request} : r.frame.fits = true → Due box (.request r)
  | append {a : Append} : a.frame.fits = true →
      Pacing.blockSize (Pacing.noteAppend box.pacer a.eventNumber a.frame.size) ≤ box.pending + a.frame.size →
      Due box (.append a)

/-- What an operation that came through has come to. -/
inductive Effect (box : Outbox σ) (op : Operation) : Except FrameFault Unit → Outbox σ → Prop
  | refused {frame : Frame} : op.frame? = some frame → frame.fits = false →
      Effect box op (.error (.tooLarge frame.payload.length)) box
  | heldBack {after : Outbox σ} (quiet : ¬ Due box op) (pacer : after.pacer = op.told box.pacer)
      (pending : after.pending = box.pending + op.load) (takes : box.out.Takes op.load after.out) :
      Effect box op (.ok ()) after
  | sent {after : Outbox σ} (due : Due box op) (pacer : after.pacer = op.told box.pacer)
      (flushed : Flushed box after) : Effect box op (.ok ()) after

theorem effect_request {r : Request} {box : Outbox σ} (h : (box.putRequest r).1 = .ok ())
    (hfits : r.frame.fits = true) : Effect box (.request r) (box.putRequest r).1 (box.putRequest r).2 := by
  have htakes := r.frame.takes_write box.out
  obtain ⟨out, hwrite⟩ | ⟨fault, out, hwrite⟩ := r.frame.write_cases box.out (of_decide_eq_true hfits)
  · rw [hwrite] at htakes
    rw [putRequest_of_write hwrite] at h ⊢
    have hflushed := flushed_flush { box with out } h
    rw [h]
    refine .sent (.request hfits) (pacer_flush _) ⟨hflushed.pending, hflushed.held, ?_⟩
    exact hflushed.flushes.trans (congrArg (· + 1) htakes.flushes)
  · simp only [putRequest, hwrite, reduceCtorEq] at h

theorem effect_append {a : Append} {box : Outbox σ} (h : (box.putAppend a).1 = .ok ())
    (hfits : a.frame.fits = true) : Effect box (.append a) (box.putAppend a).1 (box.putAppend a).2 := by
  have htakes := a.frame.takes_write box.out
  have htold : Pacing.noteAppend box.pacer a.eventNumber a.frame.size = (append a).told box.pacer := by
    rw [told, if_pos hfits]
  have hload := load_append hfits
  obtain ⟨out, hwrite⟩ | ⟨fault, out, hwrite⟩ := a.frame.write_cases box.out (of_decide_eq_true hfits)
  · rw [hwrite] at htakes
    simp only [putAppend, hwrite] at h ⊢
    split at h
    · rename_i hfull
      have hflushed := flushed_flush _ h
      rw [if_pos hfull, h]
      refine .sent (.append hfits hfull) ((pacer_flush _).trans htold) ⟨hflushed.pending, hflushed.held, ?_⟩
      exact hflushed.flushes.trans (congrArg (· + 1) htakes.flushes)
    · rename_i hroom
      rw [if_neg hroom]
      refine .heldBack ?_ htold (by rw [hload]) (by rwa [hload])
      rintro (_ | _ | ⟨_, hfull⟩)
      exact hroom hfull
  · simp only [putAppend, hwrite, reduceCtorEq] at h

theorem refused_of_not_fits {op : Operation} {frame : Frame} (hframe : op.frame? = some frame)
    (hfits : frame.fits = false) (box : Outbox σ) :
    op.perform box = (.error (.tooLarge frame.payload.length), box) ∧ op.told box.pacer = box.pacer ∧
      op.load = 0 ∧ ¬ Due box op := by
  refine ⟨perform_of_tooLarge hframe (Frame.fits_eq_false_iff.mp hfits) box, ?_⟩
  cases op with
  | request r =>
      obtain rfl := Option.some.inj hframe
      refine ⟨rfl, rfl, ?_⟩
      rintro (_ | hr)
      rw [hfits] at hr
      cases hr
  | append a =>
      obtain rfl := Option.some.inj hframe
      refine ⟨by simp [told, hfits], by simp [load, accepted?, hfits], ?_⟩
      rintro (_ | _ | ⟨ha, _⟩)
      rw [hfits] at ha
      cases ha
  | flush | ack => cases hframe

theorem effect_of_cameThrough (op : Operation) (box : Outbox σ) (h : cameThrough (op.perform box).1 = true) :
    Effect box op (op.perform box).1 (op.perform box).2 := by
  obtain ⟨frame, hframe, hfits⟩ | hfits := op.refused_or_fits
  · rw [(refused_of_not_fits hframe hfits box).1]
    exact .refused hframe hfits
  · have hok : (op.perform box).1 = .ok () := by
      obtain hok | ⟨size, hrefused⟩ := cameThrough_cases h
      · exact hok
      · exact absurd hrefused (perform_ne_tooLarge hfits box size)
    cases op with
    | request r => exact effect_request hok (hfits r.frame rfl)
    | append a => exact effect_append hok (hfits a.frame rfl)
    | flush =>
        rw [hok]
        exact .sent .flush box.pacer_flush (flushed_flush box hok)
    | ack n => exact .heldBack (by rintro ⟨⟩) rfl rfl ⟨Nat.le_refl _, rfl⟩

theorem leads_perform (op : Operation) (box : Outbox σ) :
    box.out.sink.Leads (∀ frame, op.frame? = some frame → frame.fits = true) (op.perform box).1
      (op.perform box).2.out.sink := by
  cases op with
  | request r =>
      rw [perform]
      exact (box.leads_putRequest r).mono fun hfits => hfits r.frame rfl
  | append a =>
      rw [perform]
      exact (box.leads_putAppend a).mono fun hfits => hfits a.frame rfl
  | flush =>
      rw [perform]
      exact box.leads_flush.mono fun _ => trivial
  | ack => exact .same box.out.sink ()

theorem sturdy_perform (op : Operation) {box : Outbox σ} (h : box.out.sink.Sturdy) :
    (op.perform box).2.out.sink.Sturdy := by
  obtain ⟨frame, hframe, hfits⟩ | hfits := op.refused_or_fits
  · rw [(refused_of_not_fits hframe hfits box).1]
    exact h
  · exact ((op.leads_perform box).succeeds h hfits).2

theorem cameThrough_of_sturdy (op : Operation) {box : Outbox σ} (h : box.out.sink.Sturdy) :
    cameThrough (op.perform box).1 = true := by
  obtain ⟨frame, hframe, hfits⟩ | hfits := op.refused_or_fits
  · rw [(refused_of_not_fits hframe hfits box).1]
    rfl
  · obtain ⟨⟨_, hok⟩, _⟩ := (op.leads_perform box).succeeds h hfits
    rw [hok]
    rfl

theorem effect_perform (op : Operation) {box : Outbox σ} (h : box.out.sink.Sturdy) :
    Effect box op (op.perform box).1 (op.perform box).2 :=
  op.effect_of_cameThrough box (op.cameThrough_of_sturdy h)

namespace Effect

variable {op : Operation} {box after : Outbox σ} {result : Except FrameFault Unit}

theorem pacer_eq (h : Effect box op result after) : after.pacer = op.told box.pacer := by
  cases h with
  | refused hframe hfits => exact (refused_of_not_fits hframe hfits box).2.1.symm
  | heldBack _ pacer | sent _ pacer => exact pacer

theorem flushes_iff (h : Effect box op result after) :
    box.out.sink.flushes < after.out.sink.flushes ↔ Due box op := by
  cases h with
  | refused hframe hfits =>
      exact iff_of_false (Nat.lt_irrefl _) (refused_of_not_fits hframe hfits box).2.2.2
  | heldBack quiet _ _ takes => exact iff_of_false (by rw [takes.flushes]; exact Nat.lt_irrefl _) quiet
  | sent due _ flushed => exact iff_of_true (by rw [flushed.flushes]; exact Nat.lt_succ_self _) due

theorem quiet (h : Effect box op result after) (hquiet : ¬ box.out.sink.flushes < after.out.sink.flushes) :
    after.out.sink.flushes = box.out.sink.flushes ∧ after.pending = box.pending + op.load := by
  cases h with
  | refused hframe hfits =>
      rw [(refused_of_not_fits hframe hfits box).2.2.1]
      exact ⟨rfl, rfl⟩
  | heldBack _ _ pending takes => exact ⟨takes.flushes, pending⟩
  | sent _ _ flushed => exact absurd (by rw [flushed.flushes]; exact Nat.lt_succ_self _) hquiet

theorem flushed (h : Effect box op result after) (hflushes : box.out.sink.flushes < after.out.sink.flushes) :
    after.pending = 0 ∧ after.out.held = #[] := by
  cases h with
  | refused => exact absurd hflushes (Nat.lt_irrefl _)
  | heldBack _ _ _ takes => exact absurd hflushes (by rw [takes.flushes]; exact Nat.lt_irrefl _)
  | sent _ _ flushed => exact ⟨flushed.pending, flushed.held⟩

theorem ok_or_refused (h : Effect box op result after) : result = .ok () ∨ ∃ frame, op.frame? = some frame ∧
    frame.fits = false ∧ result = .error (.tooLarge frame.payload.length) ∧ after = box := by
  cases h with
  | refused hframe hfits => exact Or.inr ⟨_, hframe, hfits, rfl, rfl⟩
  | heldBack | sent => exact Or.inl rfl

theorem held_le (h : Effect box op result after) (hheld : box.out.held.size ≤ box.pending) :
    after.out.held.size ≤ after.pending := by
  cases h with
  | refused => exact hheld
  | heldBack _ _ pending takes =>
      rw [pending]
      exact Nat.le_trans takes.held (Nat.add_le_add_right hheld _)
  | sent _ _ flushed =>
      rw [flushed.held]
      exact Nat.zero_le _

theorem pending_lt (h : Effect box op result after) {bound : Nat}
    (hbound : ∀ pacer : σ, Pacing.blockSize pacer ≤ bound) (hpending : box.pending < bound) :
    after.pending < bound := by
  cases h with
  | refused => exact hpending
  | heldBack quiet _ pending =>
      rw [pending]
      cases op with
      | append a =>
          cases hfits : a.frame.fits with
          | true =>
              rw [load_append hfits]
              have hroom := Nat.lt_of_not_le fun hfull => quiet (.append hfits hfull)
              exact Nat.lt_of_lt_of_le hroom (hbound _)
          | false => rwa [(refused_of_not_fits rfl hfits box).2.2.1]
      | request | flush | ack => exact hpending
  | sent _ _ flushed =>
      rw [flushed.pending]
      exact Nat.zero_lt_of_lt hpending

end Effect

theorem due_iff (op : Operation) (box : Outbox σ) : Due box op ↔ op = .flush ∨
    (∃ r, op = .request r ∧ r.frame.fits = true) ∨ ∃ a, op = .append a ∧ a.frame.fits = true ∧
      Pacing.blockSize (Pacing.noteAppend box.pacer a.eventNumber a.frame.size) ≤ box.pending + a.frame.size := by
  constructor
  · rintro (_ | hfits | ⟨hfits, hfull⟩)
    · exact Or.inl rfl
    · exact Or.inr (Or.inl ⟨_, rfl, hfits⟩)
    · exact Or.inr (Or.inr ⟨_, rfl, hfits, hfull⟩)
  · rintro (rfl | ⟨r, rfl, hfits⟩ | ⟨a, rfl, hfits, hfull⟩)
    · exact .flush
    · exact .request hfits
    · exact .append hfits hfull

theorem appends_told (op : Operation) (pacer : Pacing.Observed σ) : (op.told pacer).appends =
    pacer.appends ++ (op.accepted?.toList.map fun a => (a.eventNumber, a.frame.size)) := by
  cases op with
  | append a =>
      by_cases hfits : a.frame.fits = true
      · simp [told, accepted?, hfits, Pacing.noteAppend, Pacing.Observed.appends]
      · simp [told, accepted?, hfits]
  | ack n => simp [told, accepted?, Pacing.noteAck, Pacing.Observed.appends]
  | request | flush => simp [told, accepted?]

end Operation

variable [Pacing σ]

theorem run_concat (ops : List Operation) (op : Operation) (box : Outbox σ) :
    (run (ops ++ [op]) box).2 = (op.perform (run ops box).2).2 :=
  run_append ops [op] box

theorem sturdy_run (ops : List Operation) {box : Outbox σ} (h : box.out.sink.Sturdy) :
    (run ops box).2.out.sink.Sturdy := by
  induction ops using List.reverseRecOn with
  | nil => exact h
  | append_singleton ops op ih =>
      rw [run_concat]
      exact op.sturdy_perform ih

theorem cameThrough_run (ops : List Operation) {box : Outbox σ} (h : box.out.sink.Sturdy) :
    ∀ result ∈ (run ops box).1, cameThrough result = true := by
  induction ops generalizing box with
  | nil => exact nofun
  | cons op ops ih => exact List.forall_mem_cons.mpr ⟨op.cameThrough_of_sturdy h, ih (op.sturdy_perform h)⟩

theorem content_of_sturdy (ops : List Operation) {box : Outbox σ} (h : box.out.sink.Sturdy) :
    (run ops box).2.out.content = box.out.content ++ ops.flatMap Operation.bytes :=
  content_of_cameThrough ops box (cameThrough_run ops h)

theorem held_le_run (ops : List Operation) {box : Outbox σ} (h : box.out.sink.Sturdy)
    (hheld : box.out.held.size ≤ box.pending) : (run ops box).2.out.held.size ≤ (run ops box).2.pending := by
  induction ops using List.reverseRecOn with
  | nil => exact hheld
  | append_singleton ops op ih =>
      rw [run_concat]
      exact (op.effect_perform (sturdy_run ops h)).held_le ih

theorem pending_lt_run (ops : List Operation) {box : Outbox σ} (h : box.out.sink.Sturdy) {bound : Nat}
    (hbound : ∀ pacer : σ, Pacing.blockSize pacer ≤ bound) (hpending : box.pending < bound) :
    (run ops box).2.pending < bound := by
  induction ops using List.reverseRecOn with
  | nil => exact hpending
  | append_singleton ops op ih =>
      rw [run_concat]
      exact (op.effect_perform (sturdy_run ops h)).pending_lt hbound ih

theorem appends_run (ops : List Operation) {box : Outbox (Pacing.Observed σ)} (h : box.out.sink.Sturdy) :
    (run ops box).2.pacer.appends =
      box.pacer.appends ++
        ((ops.filterMap Operation.accepted?).map fun a => (a.eventNumber, a.frame.size)) := by
  induction ops using List.reverseRecOn with
  | nil => exact (List.append_nil _).symm
  | append_singleton ops op ih =>
      rw [run_concat, (op.effect_perform (sturdy_run ops h)).pacer_eq, op.appends_told, ih, List.append_assoc,
        List.filterMap_append, List.map_append]
      cases haccepted : op.accepted? <;> simp [haccepted]

/-- `later` is what has come since the last flush. -/
structure SinceFlush (box : Outbox σ) (earlier later : List Operation) : Prop where
  flushed : earlier = [] ∨ ∃ before last, earlier = before ++ [last] ∧ last.Flushes (run before box).2
  quiet : (run (earlier ++ later) box).2.out.sink.flushes = (run earlier box).2.out.sink.flushes

def accepted (ops : List Operation) : Nat := (ops.map Operation.load).sum

theorem accepted_concat (ops : List Operation) (op : Operation) :
    accepted (ops ++ [op]) = accepted ops + op.load := by
  rw [accepted, List.map_append, List.sum_append, List.map_singleton, List.sum_singleton, accepted]

theorem pending_run_eq (ops : List Operation) {box : Outbox σ} (h : box.out.sink.Sturdy)
    (hnone : box.pending = 0) : ∃ earlier later, ops = earlier ++ later ∧ SinceFlush box earlier later ∧
      (run ops box).2.pending = accepted later := by
  induction ops using List.reverseRecOn with
  | nil => exact ⟨[], [], rfl, ⟨Or.inl rfl, rfl⟩, hnone⟩
  | append_singleton ops op ih =>
      obtain ⟨earlier, later, rfl, hsince, hpending⟩ := ih
      have heffect := op.effect_perform (sturdy_run (earlier ++ later) h)
      by_cases hflushes : op.Flushes (run (earlier ++ later) box).2
      · refine ⟨earlier ++ later ++ [op], [], (List.append_nil _).symm, ⟨?_, by rw [List.append_nil]⟩, ?_⟩
        · exact Or.inr ⟨_, op, rfl, hflushes⟩
        · rw [run_concat]
          exact (heffect.flushed hflushes).1
      · obtain ⟨hflushes, hcount⟩ := heffect.quiet hflushes
        refine ⟨earlier, later ++ [op], List.append_assoc .., ⟨hsince.flushed, ?_⟩, ?_⟩
        · rw [← List.append_assoc, run_concat, hflushes, hsince.quiet]
        · rw [run_concat, hcount, hpending, accepted_concat]

/-- With a sturdy sink a pacer hears of the appends within the limit, in order, and of nothing else
that is written. What is pending is what has been accepted since the last flush, and at least what the
buffer holds. A flush brings all bytes so far to the sink. The adaptive pacer never lets a whole
buffer gather. -/
theorem pending_run (pacer : Pacing.Observed σ) (sink : Sink) (hsink : sink.Sturdy) (before : List Operation)
    (op : Operation) :
    let box : Outbox (Pacing.Observed σ) := { out := { sink }, pacer }
    let here := (run before box).2
    let result := (op.perform here).1
    let after := (op.perform here).2
    (here.pacer.appends = pacer.appends ++
      (before.filterMap Operation.accepted?).map fun a => (a.eventNumber, a.frame.size)) ∧
    (∃ earlier later, before = earlier ++ later ∧ SinceFlush box earlier later ∧
      here.pending = accepted later) ∧
    here.out.held.size ≤ here.pending ∧
    (op.Flushes here ↔ op = .flush ∨ (∃ r, op = .request r ∧ r.frame.fits = true) ∨
      ∃ a, op = .append a ∧ a.frame.fits = true ∧
        Pacing.blockSize (Pacing.noteAppend here.pacer a.eventNumber a.frame.size) ≤
          here.pending + a.frame.size) ∧
    (op.Flushes here → after.pending = 0 ∧ after.out.held = #[] ∧
      after.out.sink.taken = sink.taken ++ (before ++ [op]).flatMap Operation.bytes) ∧
    (result = .ok () ∨ ∃ frame, op.frame? = some frame ∧ frame.fits = false ∧
      result = .error (.tooLarge frame.payload.length) ∧ after = here) ∧
    ∀ adaptive : Adaptive,
      let held := (run before { out := { sink }, pacer := adaptive }).2
      held.pending < maxBlock ∧ held.out.held.size < maxBlock := by
  intro box here result after
  have heffect : op.Effect here result after := op.effect_perform (sturdy_run before hsink)
  refine ⟨appends_run before hsink, pending_run_eq before hsink rfl,
    held_le_run before hsink (Nat.le_refl _), heffect.flushes_iff.trans (op.due_iff here), ?_, ?_, ?_⟩
  · intro hflushes
    obtain ⟨hpending, hheld⟩ := heffect.flushed hflushes
    have hcontent : after.out.content = box.out.content ++ (before ++ [op]).flatMap Operation.bytes := by
      rw [← content_of_sturdy (before ++ [op]) hsink, run_concat]
    rw [BufferedSink.content, BufferedSink.content, hheld, List.append_nil, List.append_nil] at hcontent
    exact ⟨hpending, hheld, hcontent⟩
  · exact heffect.ok_or_refused
  · intro adaptive held
    have hlt : held.pending < maxBlock := pending_lt_run before hsink Adaptive.blockSize_le
      (show 0 < maxBlock by decide)
    exact ⟨hlt, Nat.lt_of_le_of_lt (held_le_run before hsink (Nat.le_refl _)) hlt⟩

theorem pending_run_pieces :
    let sink : Sink := { turns := [.take 3, .fail .interrupted] }
    let pacer : Pacing.Observed Pacing.Schedule := { inner := { sizes := [100] } }
    let before := [.append (Append.single 1 0 []), .ack 0]
    let op := .append (Append.single 1 1 [7])
    let here := (run before { out := { sink }, pacer }).2
    sink.Sturdy ∧ here.pacer.appends = [(0, 52)] ∧ here.out.held.size ≤ here.pending ∧ here.pending = 52 ∧
      (Operation.perform op here).2.pending = 0 ∧ (Operation.perform op here).2.out.held = #[] ∧
      (Operation.perform op here).2.out.sink.taken = (before ++ [op]).flatMap Operation.bytes := by
  intro sink pacer before op
  have hsink : sink.Sturdy := ⟨by simp [sink], nofun⟩
  obtain ⟨happends, _, hheld, hflushes, hflushed, _⟩ := pending_run pacer sink hsink before op
  have hdue := hflushed (hflushes.mpr (Or.inr (Or.inr ⟨_, rfl, by decide, by decide⟩)))
  exact ⟨hsink, happends.trans (by decide), hheld, by decide, hdue⟩

end Outbox

end SegmentClient
