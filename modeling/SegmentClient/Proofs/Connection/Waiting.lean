import SegmentClient.Proofs.Connection.Calls
import SegmentClient.Proofs.Connection.Ending
import SegmentClient.Proofs.Frame.Truncated
import Mathlib.Data.List.Forall2

namespace SegmentClient

namespace Connection

namespace Shared

section Steps

variable {ω : Type} {s t : Shared ω} {thread : Nat} {call : Call}

theorem phase_enter_of_rest (rest : s.phase thread = .atRest) (p : Phase) {other : Nat}
    (h : s.phase other ≠ .atRest) : (s.enter thread p).phase other = s.phase other := by
  refine if_neg ?_
  rintro rfl
  exact h rest

def StillWaits (s t : Shared ω) : Prop :=
  ∀ thread call, s.phase thread = .writing call → t.phase thread = .writing call

theorem stillWaits_enter (rest : s.phase thread = .atRest) (p : Phase) : s.StillWaits (s.enter thread p) := by
  intro other call hother
  rw [phase_enter_of_rest rest p (by rw [hother]; exact nofun), hother]

/-- The connection is closed, or some thread is about to mark it. -/
def Closing (s : Shared ω) : Prop := s.teardown.closed = true ∨ ∃ thread, s.phase thread = .marking

variable [CommandWriter ω]

theorem advance_of_writing (h : s.phase thread = .writing call) :
    (s.advance thread).outbox = (call.run s.outbox).2 ∧ (s.advance thread).teardown = s.teardown ∧
      (s.advance thread).phase thread = if (call.run s.outbox).1.isOk then .atRest else .marking := by
  rcases hrun : call.run s.outbox with ⟨fault | _, outbox⟩ <;>
    simp [advance, h, hrun, enter, Except.isOk, Except.toBool]

theorem advance_of_marking (h : s.phase thread = .marking) :
    (s.advance thread).outbox = s.outbox ∧
      (s.advance thread).teardown = { s.teardown with closed := true } := by
  simp [advance, h, enter, Phase.step]

theorem outbox_advance (h : ∀ call, s.phase thread ≠ .writing call) :
    (s.advance thread).outbox = s.outbox := by
  unfold advance
  split
  · rename_i call hcall
    exact absurd hcall (h call)
  · rfl

theorem phase_advance_of_ne {other : Nat} (h : other ≠ thread) :
    (s.advance thread).phase other = s.phase other := by
  unfold advance
  split
  · split <;> exact if_neg h
  · exact if_neg h

theorem phase_advance_ne_writing : (s.advance thread).phase thread ≠ .writing call := by
  cases hphase : s.phase thread with
  | writing other =>
      rw [(advance_of_writing hphase).2.2]
      split <;> simp
  | atRest | telling | shutting | reporting => simp [advance, hphase, enter, Phase.step]
  | marking | stopping | failing | withdrawing =>
      simp only [advance, hphase, enter, Phase.step, if_true]
      split <;> simp

theorem stillWaits_advance (h : ∀ call, s.phase thread ≠ .writing call) : s.StillWaits (s.advance thread) := by
  intro other call hother
  have hne : other ≠ thread := by
    rintro rfl
    exact h call hother
  rw [phase_advance_of_ne hne, hother]

theorem Step.writes_or_waits (h : Step s t) :
    (∃ thread call, s.phase thread = .writing call ∧ t = s.advance thread) ∨
      t.outbox = s.outbox ∧ s.StillWaits t := by
  cases h with
  | call _ _ rest | close _ rest | fail _ rest => exact Or.inr ⟨rfl, stillWaits_enter rest _⟩
  | advance thread =>
      by_cases hwriting : ∃ call, s.phase thread = .writing call
      · obtain ⟨call, hcall⟩ := hwriting
        exact Or.inl ⟨thread, call, hcall, rfl⟩
      · have hnot : ∀ call, s.phase thread ≠ .writing call := fun call h => hwriting ⟨call, h⟩
        exact Or.inr ⟨outbox_advance hnot, stillWaits_advance hnot⟩

theorem Step.writing_of_closed (h : Step s t) (hclosed : s.teardown.closed = true)
    (hwriting : t.phase thread = .writing call) : s.phase thread = .writing call := by
  cases h with
  | call _ _ _ isOpen => exact absurd (hclosed.symm.trans isOpen) Bool.noConfusion
  | close other rest | fail other rest =>
      by_cases hother : thread = other
      · simp [enter, hother] at hwriting
      · simpa [enter, hother] using hwriting
  | advance other =>
      by_cases hother : thread = other
      · exact absurd (hother ▸ hwriting) phase_advance_ne_writing
      · rwa [phase_advance_of_ne hother] at hwriting

theorem Step.closing (h : Step s t) (hclosing : s.Closing) : t.Closing := by
  obtain hclosed | ⟨marker, hmarker⟩ := hclosing
  · obtain ⟨_, _, _, hmoves⟩ := h.moves
    exact Or.inl (hmoves.closed hclosed)
  · cases h with
    | call _ _ rest | close _ rest | fail _ rest =>
        refine Or.inr ⟨marker, ?_⟩
        rw [phase_enter_of_rest rest _ (by rw [hmarker]; exact nofun), hmarker]
    | advance thread =>
        by_cases hmarks : marker = thread
        · subst hmarks
          left
          rw [(advance_of_marking hmarker).2]
        · exact Or.inr ⟨marker, (phase_advance_of_ne hmarks).trans hmarker⟩

theorem closed_of_steps (hsteps : Relation.ReflTransGen Step s t) (hclosed : s.teardown.closed = true) :
    (∀ thread call, t.phase thread = .writing call → s.phase thread = .writing call) ∧
      ((∀ thread call, s.phase thread ≠ .writing call) → t.outbox = s.outbox) := by
  induction hsteps with
  | refl => exact ⟨fun _ _ => id, fun _ => rfl⟩
  | tail hfirst hstep ih =>
      have hstill := (flags_of_steps hfirst).1 hclosed
      refine ⟨fun thread call h => ih.1 thread call (hstep.writing_of_closed hstill h), fun hnone => ?_⟩
      obtain ⟨thread, call, hwriting, _⟩ | ⟨houtbox, _⟩ := hstep.writes_or_waits
      · exact absurd (ih.1 thread call hwriting) (hnone thread call)
      · exact houtbox.trans (ih.2 hnone)

end Steps

structure Written where
  call : Call
  result : Except FrameFault Unit

/-- A front part of the call's frames, and all of them if it succeeded. -/
def Written.Adds (w : Written) (part : List UInt8) : Prop :=
  part <+: w.call.bytes ∧ (w.result = .ok () → part = w.call.bytes)

/-- How a state was reached, as far as the outbox knows: the calls that were written, in order. -/
inductive Trail {ω : Type} [CommandWriter ω] (outbox : ω) : List Written → Shared ω → Prop
  | start : Trail outbox [] { outbox }
  | writes {trail : List Written} {s : Shared ω} {thread : Nat} {call : Call} : Trail outbox trail s →
      s.phase thread = .writing call →
      Trail outbox (trail ++ [⟨call, (call.run s.outbox).1⟩]) (s.advance thread)
  | waits {trail : List Written} {s t : Shared ω} : Trail outbox trail s → Step s t →
      s.StillWaits t → Trail outbox trail t

namespace Trail

section Reaching

variable {ω : Type} [CommandWriter ω] {outbox : ω} {s t : Shared ω} {trail : List Written}

theorem reachable (h : Trail outbox trail s) : Reachable outbox s := by
  induction h with
  | start => exact .start
  | writes _ _ ih => exact .step ih (.advance _ _)
  | waits _ hstep _ ih => exact .step ih hstep

theorem exists_of_reachable (h : Reachable outbox s) : ∃ trail, Trail outbox trail s := by
  induction h with
  | start => exact ⟨[], .start⟩
  | step _ hstep ih =>
      obtain ⟨trail, htrail⟩ := ih
      obtain ⟨thread, call, hwriting, rfl⟩ | ⟨_, hwaits⟩ := hstep.writes_or_waits
      · exact ⟨_, .writes htrail hwriting⟩
      · exact ⟨trail, .waits htrail hstep hwaits⟩

theorem outbox_of_waits (hstep : Step s t) (hwaits : s.StillWaits t) : t.outbox = s.outbox := by
  obtain ⟨thread, call, hwriting, rfl⟩ | ⟨houtbox, _⟩ := hstep.writes_or_waits
  · exact absurd (hwaits thread call hwriting) phase_advance_ne_writing
  · exact houtbox

theorem call (h : Trail outbox trail s) (thread : Nat) (call : Call) (rest : s.phase thread = .atRest)
    (isOpen : s.teardown.closed = false) : Trail outbox trail (s.enter thread (.writing call)) :=
  h.waits (.call s thread call rest isOpen) (stillWaits_enter rest _)

theorem advance (h : Trail outbox trail s) (thread : Nat) (hnot : ∀ call, s.phase thread ≠ .writing call) :
    Trail outbox trail (s.advance thread) :=
  h.waits (.advance s thread) (stillWaits_advance hnot)

theorem closing_of_failed (h : Trail outbox trail s) (hfailed : ∃ w ∈ trail, w.result ≠ .ok ()) :
    s.Closing := by
  induction h with
  | start =>
      obtain ⟨_, hw, _⟩ := hfailed
      cases hw
  | @writes trail s thread call _ hwriting ih =>
      obtain ⟨w, hw, hfault⟩ := hfailed
      obtain hbefore | hlast := List.mem_append.mp hw
      · exact Step.closing (.advance _ _) (ih ⟨w, hbefore, hfault⟩)
      · obtain rfl := List.mem_singleton.mp hlast
        refine Or.inr ⟨thread, ?_⟩
        rw [(advance_of_writing hwriting).2.2]
        rcases hrun : (call.run s.outbox).1 with fault | _
        · rfl
        · exact absurd hrun hfault
  | waits _ hstep _ ih => exact hstep.closing (ih hfailed)

end Reaching

section Sending

variable {σ : Type} [Pacing σ] {outbox : Outbox σ} {s : Shared (Outbox σ)} {trail : List Written}

theorem exists_parts (h : Trail outbox trail s) : ∃ parts, List.Forall₂ Written.Adds trail parts ∧
    s.outbox.out.content = outbox.out.content ++ parts.flatten := by
  induction h with
  | start => exact ⟨[], .nil, (List.append_nil _).symm⟩
  | @writes trail s thread call _ hwriting ih =>
      obtain ⟨parts, hparts, hcontent⟩ := ih
      obtain ⟨part, hpart, hgrown, hwhole⟩ := call.grows_run s.outbox
      refine ⟨parts ++ [part], List.rel_append hparts (.cons ⟨hpart, hwhole⟩ .nil), ?_⟩
      rw [(advance_of_writing hwriting).1, hgrown, hcontent, List.flatten_append, List.flatten_singleton,
        List.append_assoc]
  | waits _ hstep hwaits ih => rwa [outbox_of_waits hstep hwaits]

theorem drained_of_ok (h : Trail outbox trail s) (hdrained : outbox.Drained)
    (hok : ∀ w ∈ trail, w.result = .ok ()) : s.outbox.Drained ∧
      s.outbox.out.sink.taken = outbox.out.sink.taken ++ trail.flatMap (·.call.bytes) := by
  induction h with
  | start => exact ⟨hdrained, (List.append_nil _).symm⟩
  | @writes trail s thread call _ hwriting ih =>
      obtain ⟨hbefore, hlast⟩ := List.forall_mem_append.mp hok
      obtain ⟨hhere, htaken⟩ := ih hbefore
      obtain ⟨hafter, hall⟩ := (call.run_of_drained hhere).2 (hlast _ (List.mem_singleton_self _))
      rw [(advance_of_writing hwriting).1]
      refine ⟨hafter, ?_⟩
      rw [hall, htaken, List.flatMap_append, List.flatMap_singleton, List.append_assoc]
  | waits _ hstep hwaits ih =>
      rw [outbox_of_waits hstep hwaits]
      exact ih hok

/-- One call may fail and cut its frames off, as long as it is the last. -/
theorem sent_of_lastFails (h : Trail outbox trail s) (hdrained : outbox.Drained)
    (hok : ∀ w ∈ trail.dropLast, w.result = .ok ()) : ∃ sent, sent <+: trail.flatMap (·.call.bytes) ∧
      s.outbox.out.sink.taken = outbox.out.sink.taken ++ sent := by
  induction h with
  | start => exact ⟨[], List.prefix_rfl, (List.append_nil _).symm⟩
  | @writes trail s thread call hbefore hwriting =>
      rw [List.dropLast_concat] at hok
      obtain ⟨hhere, htaken⟩ := hbefore.drained_of_ok hdrained hok
      obtain ⟨part, hpart, hsent⟩ := (call.run_of_drained hhere).1
      refine ⟨trail.flatMap (·.call.bytes) ++ part, ?_, ?_⟩
      · rw [List.flatMap_append, List.flatMap_singleton]
        exact (List.prefix_append_right_inj _).mpr hpart
      · rw [(advance_of_writing hwriting).1, hsent, htaken, List.append_assoc]
  | waits _ hstep hwaits ih =>
      rw [outbox_of_waits hstep hwaits]
      exact ih hok

end Sending

end Trail

def bothWaiting {ω : Type} (outbox : ω) (first second : Call) : Shared ω :=
  (({ outbox } : Shared ω).enter 0 (.writing first)).enter 1 (.writing second)

theorem trail_bothWaiting {ω : Type} [CommandWriter ω] (outbox : ω) (first second : Call) :
    Trail outbox [] (bothWaiting outbox first second) :=
  .call (.call .start 0 first rfl rfl) 1 second rfl rfl

/-- However the steps of the threads fall, each call that is past the check adds a front part of its
frames, in its turn, and all of them if it succeeds. Until a call is written behind one that failed, the
sink has whole frames, of which the last may be cut off. A call that fails has the connection closed; and
once that is done only those are still written which were past the check already. -/
theorem taken_of_reachable {σ : Type} [Pacing σ] (pacer : σ) (sink : Sink) (s : Shared (Outbox σ))
    (h : Reachable { out := { sink }, pacer } s) :
    (∃ trail, Trail { out := { sink }, pacer } trail s) ∧
    (∀ trail, Trail { out := { sink }, pacer } trail s →
      (∃ parts, List.Forall₂ Written.Adds trail parts ∧
        s.outbox.out.sink.taken <+: sink.taken ++ parts.flatten) ∧
      ((∀ w ∈ trail.dropLast, w.result = .ok ()) → ∃ sent, sent <+: trail.flatMap (·.call.bytes) ∧
        Frame.Intact (trail.flatMap (·.call.frames)) sent ∧ s.outbox.out.sink.taken = sink.taken ++ sent) ∧
      ((∀ w ∈ trail, w.result = .ok ()) →
        s.outbox.out.sink.taken = sink.taken ++ trail.flatMap (·.call.bytes)) ∧
      ((∃ w ∈ trail, w.result ≠ .ok ()) → s.Closing)) ∧
    (s.teardown.closed = true → ∀ t, Relation.ReflTransGen Step s t →
      (∀ thread call, t.phase thread = .writing call → s.phase thread = .writing call) ∧
      ((∀ thread call, s.phase thread ≠ .writing call) → t.outbox = s.outbox)) := by
  have hdrained : ({ out := { sink }, pacer } : Outbox σ).Drained := ⟨rfl, rfl⟩
  refine ⟨Trail.exists_of_reachable h, ?_, fun hclosed t hsteps => closed_of_steps hsteps hclosed⟩
  intro trail htrail
  refine ⟨?_, ?_, fun hok => (htrail.drained_of_ok hdrained hok).2, htrail.closing_of_failed⟩
  · obtain ⟨parts, hparts, hcontent⟩ := htrail.exists_parts
    refine ⟨parts, hparts, s.outbox.out.held.toList, hcontent.trans ?_⟩
    rw [BufferedSink.content, List.append_nil]
  · intro hok
    obtain ⟨sent, hsent, htaken⟩ := htrail.sent_of_lastFails hdrained hok
    refine ⟨sent, hsent, Frame.intact_of_prefix ?_, htaken⟩
    rw [List.flatMap_assoc]
    exact hsent

theorem taken_of_reachable_cut :
    let sink : Sink := { turns := [.take 8, .take 3, .fail .timedOut] }
    let outbox : Outbox Pacing.Schedule := { out := { sink }, pacer := ⟨[], 0⟩ }
    let waiting := bothWaiting outbox (.request .keepAlive) (.request .keepAlive)
    let s := (waiting.advance 0).advance 1
    Reachable outbox s ∧ s.Closing ∧ s.outbox.out.sink.taken.length = 11 ∧
      ∃ sent, Frame.Intact [Request.keepAlive.frame, Request.keepAlive.frame] sent ∧
        s.outbox.out.sink.taken = sink.taken ++ sent := by
  intro sink outbox waiting s
  have hfirst : waiting.phase 0 = .writing (.request .keepAlive) := rfl
  have hsecond : (waiting.advance 0).phase 1 = .writing (.request .keepAlive) := by decide +kernel
  have hok : ((Call.request .keepAlive).run waiting.outbox).1 = .ok () := by decide +kernel
  have hfault : ((Call.request .keepAlive).run (waiting.advance 0).outbox).1 =
      .error (.stream (.ofKind .timedOut)) := by decide +kernel
  have htrail := ((trail_bothWaiting outbox _ _).writes hfirst).writes hsecond
  rw [hok, hfault] at htrail
  obtain ⟨_, hsent, _, hclosing⟩ :=
    (taken_of_reachable (⟨[], 0⟩ : Pacing.Schedule) sink s htrail.reachable).2.1 _ htrail
  obtain ⟨sent, _, hintact, htaken⟩ := hsent (by decide)
  have hcut : s.outbox.out.sink.taken.length = 11 := by decide +kernel
  refine ⟨htrail.reachable, hclosing ?_, hcut, sent, hintact, htaken⟩
  exact ⟨_, List.mem_cons_of_mem _ (List.mem_singleton_self _), nofun⟩

section Breaking

def bothWritten {ω : Type} [CommandWriter ω] (outbox : ω) (first second : Call) : Shared ω :=
  (((bothWaiting outbox first second).advance 0).advance 0).advance 1

theorem trail_bothWritten {ω : Type} [CommandWriter ω] {outbox broken : ω} {first : Call} {fault : FrameFault}
    (hfails : first.run outbox = (.error fault, broken)) (second : Call) :
    Trail outbox [⟨first, .error fault⟩, ⟨second, (second.run broken).1⟩] (bothWritten outbox first second) ∧
      (bothWritten outbox first second).teardown = { closed := true } ∧
      (bothWritten outbox first second).outbox = (second.run broken).2 := by
  rw [bothWritten]
  have hfirst : (bothWaiting outbox first second).phase 0 = .writing first := rfl
  have hwritten := (trail_bothWaiting outbox first second).writes hfirst
  obtain ⟨hbroken, hopen, hmarking⟩ := advance_of_writing hfirst
  have hsecond : ((bothWaiting outbox first second).advance 0).phase 1 = .writing second :=
    phase_advance_of_ne Nat.one_ne_zero
  have hrun : first.run (bothWaiting outbox first second).outbox = (.error fault, broken) := hfails
  rw [hrun] at hbroken hwritten hmarking
  generalize (bothWaiting outbox first second).advance 0 = failed at hbroken hopen hmarking hwritten hsecond ⊢
  obtain ⟨hkept, hmarked⟩ := advance_of_marking hmarking
  have hbehind := hwritten.advance 0 fun call h => Phase.noConfusion (hmarking.symm.trans h)
  have hturn : (failed.advance 0).phase 1 = .writing second :=
    (phase_advance_of_ne Nat.one_ne_zero).trans hsecond
  obtain ⟨houtbox, hteardown, _⟩ := advance_of_writing hturn
  have hend := hbehind.writes hturn
  rw [hkept, hbroken] at houtbox hend
  exact ⟨hend, hteardown.trans (hmarked.trans (by rw [hopen]; rfl)), houtbox⟩

variable {σ : Type} [Pacing σ]

theorem run_of_fault {box : Outbox σ} {append : Append} {kind : StreamFault.Kind} {turns : List Sink.Turn}
    (hdrained : box.Drained) (hturns : box.out.sink.turns = .fail kind :: turns) (hkind : kind ≠ .interrupted)
    (hfits : append.frame.fits = true) (hlarge : maxBlock < append.frame.size) :
    ∃ after, (Call.appends [append]).run box = (.error (.stream (.ofKind kind)), after) ∧
      after.out.content = box.out.sink.taken ++ append.frame.header ∧ after.out.sink.turns = turns ∧
      after.out.sink.flushTurns = box.out.sink.flushTurns := by
  obtain ⟨out, hwrite, hrest⟩ :=
    append.frame.write_of_fault box.out hdrained.held hturns hkind hfits (by decide) hlarge
  have hput : box.putAppend append = (.error (.stream (.ofKind kind)), { box with out }) := by
    rw [Outbox.putAppend, hwrite]
  exact ⟨{ box with out }, writeEach_of_error hput [], hrest⟩

/-- An append too large for the buffer fails, and its thread marks the connection closed; but another
thread has found it open before, and writes its request behind the header of the append. -/
theorem taken_bothWritten {box : Outbox σ} (hdrained : box.Drained) {kind : StreamFault.Kind}
    (hturns : box.out.sink.turns = [.fail kind]) (hflushTurns : box.out.sink.flushTurns = [])
    (hkind : kind ≠ .interrupted) {append : Append} (hfits : append.frame.fits = true)
    (hlarge : maxBlock < append.frame.size) {request : Request} (hrequest : request.frame.fits = true) :
    Trail box [⟨.appends [append], .error (.stream (.ofKind kind))⟩, ⟨.request request, .ok ()⟩]
        (bothWritten box (.appends [append]) (.request request)) ∧
      (bothWritten box (.appends [append]) (.request request)).teardown = { closed := true } ∧
      (bothWritten box (.appends [append]) (.request request)).outbox.out.sink.taken =
        box.out.sink.taken ++ append.frame.header ++ request.frame.bytes := by
  obtain ⟨broken, hfails, hcontent, hnone, hflushes⟩ := run_of_fault hdrained hturns hkind hfits hlarge
  have hsturdy : broken.out.sink.Sturdy :=
    ⟨by rw [hnone]; exact nofun, by rw [hflushes, hflushTurns]; exact nofun⟩
  obtain ⟨hok, htaken⟩ :=
    (Call.request request).taken_of_sturdy hsturdy (List.forall_mem_singleton.mpr hrequest)
  obtain ⟨htrail, hteardown, houtbox⟩ := trail_bothWritten hfails (.request request)
  rw [hok] at htrail
  refine ⟨htrail, hteardown, ?_⟩
  rw [houtbox, htaken, hcontent, Call.bytes, Call.frames, List.flatMap_singleton]

/-- A keep-alive behind the header of an append, of which nothing else was sent. -/
theorem not_intact_waiting :
    let append := Append.single 1 1 (List.replicate 262144 0)
    let outbox : Outbox Pacing.Schedule :=
      { out := { sink := { turns := [.fail .timedOut] } }, pacer := ⟨[0], 0⟩ }
    let trail : List Written :=
      [⟨.appends [append], .error (.stream (.ofKind .timedOut))⟩, ⟨.request .keepAlive, .ok ()⟩]
    ∃ s, Reachable outbox s ∧ Trail outbox trail s ∧ s.teardown = { closed := true } ∧
      s.outbox.out.sink.taken = append.frame.header ++ Request.keepAlive.frame.bytes ∧
      ¬ Frame.Intact (trail.flatMap (·.call.frames)) s.outbox.out.sink.taken := by
  intro append outbox trail
  have hdrained : outbox.Drained := ⟨rfl, rfl⟩
  have hlength : append.frame.payload.length = 262188 := by
    have hdata : append.data.length = 262144 := List.length_replicate
    rw [Append.frame, append.length_payload, hdata]
  have hfits : append.frame.fits = true := by
    rw [Frame.fits, hlength]
    decide
  have hlarge : maxBlock < append.frame.size := by
    rw [Frame.size, hlength]
    decide
  have hrequest : Request.keepAlive.frame.fits = true := by decide
  obtain ⟨htrail, hteardown, htaken⟩ := taken_bothWritten hdrained rfl rfl (by decide) hfits hlarge hrequest
  have hnothing : outbox.out.sink.taken = [] := rfl
  rw [hnothing, List.nil_append] at htaken
  have hframes : trail.flatMap (·.call.frames) = [append.frame, Request.keepAlive.frame] := rfl
  have hintact : ¬ Frame.Intact (trail.flatMap (·.call.frames))
      (append.frame.header ++ Request.keepAlive.frame.bytes) := by
    rw [hframes]
    refine Frame.not_intact hfits hrequest (by decide) ?_ ?_
    · rw [hlength]
      decide
    · intro hprefix
      have hwriter : Wire.BigEndian.encode 16 1 <+: append.frame.payload := List.prefix_append ..
      exact absurd (List.prefix_of_prefix_length_le hprefix hwriter (by decide)) (by decide)
  rw [← htaken] at hintact
  exact ⟨_, htrail.reachable, htrail, hteardown, htaken, hintact⟩

end Breaking

end Shared

end Connection

end SegmentClient
