import SegmentClient.Connection.Interleaving
import Mathlib.Logic.Relation

namespace SegmentClient.Connection

namespace Phase

def midway : Phase → Bool
  | stopping | telling | shutting | reporting | withdrawing => true
  | atRest | writing _ | marking | failing => false

def owesNotice : Phase → Bool
  | telling | reporting => true
  | atRest | writing _ | marking | stopping | shutting | failing | withdrawing => false

def owesShutdown : Phase → Bool
  | stopping | telling | shutting => true
  | atRest | writing _ | marking | failing | reporting | withdrawing => false

def owesMark : Phase → Bool
  | reporting | withdrawing => true
  | atRest | writing _ | marking | stopping | telling | shutting | failing => false

theorem owesNothing {p : Phase} (h : p.midway = false) :
    p.owesNotice = false ∧ p.owesShutdown = false ∧ p.owesMark = false ∧ p ≠ stopping := by
  cases p <;> simp_all [midway, owesNotice, owesShutdown, owesMark]

end Phase

/-- A duty that comes with the raising of a flag. While the flag is down nobody has it; then it is one
thread's alone until that thread has done it, and nobody has it again. -/
inductive Duty : (flag : Bool) → (times : Nat) → (owes : Nat → Bool) → Prop
  | absent {owes : Nat → Bool} : (∀ thread, owes thread = false) → Duty false 0 owes
  | owed {owes : Nat → Bool} (holder : Nat) :
      (∀ thread, owes thread = true ↔ thread = holder) → Duty true 0 owes
  | done {owes : Nat → Bool} : (∀ thread, owes thread = false) → Duty true 1 owes

/-- What one step of a thread may mean for a duty: nothing, that the thread raises the flag and takes
the duty, or that it does what it owes. -/
inductive Transfer : (flag owes : Bool) → (times : Nat) → (flag' owes' : Bool) → (times' : Nat) → Prop
  | none (flag owes : Bool) (times : Nat) : Transfer flag owes times flag owes times
  | take (times : Nat) : Transfer false false times true true times
  | perform (flag : Bool) (times : Nat) : Transfer flag true times flag false (times + 1)

namespace Duty

variable {flag flag' owes' : Bool} {times times' : Nat} {owes : Nat → Bool}

theorem times_le (h : Duty flag times owes) : times ≤ 1 := by
  cases h <;> decide

theorem flag_of_owes (h : Duty flag times owes) {thread : Nat} (howes : owes thread = true) : flag = true := by
  cases h with
  | absent hnone => rw [hnone thread] at howes; cases howes
  | owed | done => rfl

theorem times_eq (h : Duty flag times owes) (hnone : ∀ thread, owes thread = false) :
    times = if flag then 1 else 0 := by
  cases h with
  | absent | done => rfl
  | owed holder howner => exact absurd ((howner holder).mpr rfl) (by simp [hnone])

theorem step (h : Duty flag times owes) (thread : Nat)
    (ht : Transfer flag (owes thread) times flag' owes' times') :
    Duty flag' times' fun other => if other = thread then owes' else owes other := by
  generalize howes : owes thread = before at ht
  cases ht with
  | none =>
      have hsame : (fun other => if other = thread then owes' else owes other) = owes := by
        funext other
        by_cases hother : other = thread <;> simp [hother, howes]
      rwa [hsame]
  | take =>
      cases h with
      | absent hnone =>
          apply owed thread
          intro other
          by_cases hother : other = thread <;> simp [hother, hnone]
  | perform =>
      -- The thread is the holder, for it owes the duty; without it nobody is left.
      have hnobody : ∀ holder, (∀ t, owes t = true ↔ t = holder) →
          ∀ other, (if other = thread then false else owes other) = false := by
        intro holder howner other
        have hthread : thread = holder := (howner thread).mp howes
        by_cases hother : other = thread
        · simp [hother]
        · rw [if_neg hother, Bool.eq_false_iff]
          exact fun h => hother (((howner other).mp h).trans hthread.symm)
      cases h with
      | absent hnone | done hnone => exact absurd howes (by simp [hnone])
      | owed holder howner => exact done (hnobody holder howner)

end Duty

namespace Phase

variable (p : Phase) (t : Teardown)

theorem transfer_notice : Transfer t.stopped p.owesNotice t.notices
    (p.step t).2.stopped (p.step t).1.owesNotice (p.step t).2.notices := by
  obtain ⟨closed, stopped, notices, shutdowns⟩ := t
  cases p with
  | stopping | failing =>
      cases stopped with
      | true => exact Transfer.none true false notices
      | false => exact Transfer.take notices
  | telling | reporting => exact Transfer.perform stopped notices
  | marking | withdrawing => cases closed <;> exact Transfer.none stopped false notices
  | atRest | writing | shutting => exact Transfer.none stopped false notices

theorem transfer_shutdown : Transfer t.closed p.owesShutdown t.shutdowns
    (p.step t).2.closed (p.step t).1.owesShutdown (p.step t).2.shutdowns := by
  obtain ⟨closed, stopped, notices, shutdowns⟩ := t
  cases p with
  | marking | withdrawing =>
      cases closed with
      | true => exact Transfer.none true false shutdowns
      | false => exact Transfer.take shutdowns
  | shutting => exact Transfer.perform closed shutdowns
  | stopping => cases stopped <;> exact Transfer.none closed true shutdowns
  | failing => cases stopped <;> exact Transfer.none closed false shutdowns
  | telling => exact Transfer.none closed true shutdowns
  | atRest | writing | reporting => exact Transfer.none closed false shutdowns

end Phase

inductive Phase.Moves (t : Teardown) : Phase → Phase → Teardown → Prop
  | idle {p q : Phase} : p.midway = false → q.midway = false → Moves t p q t
  | step (p : Phase) : Moves t p (p.step t).1 (p.step t).2

namespace Phase.Moves

variable {p q : Phase} {t t' : Teardown}

theorem transfer_notice (h : p.Moves t q t') :
    Transfer t.stopped p.owesNotice t.notices t'.stopped q.owesNotice t'.notices := by
  cases h with
  | idle hp hq =>
      rw [(owesNothing hp).1, (owesNothing hq).1]
      exact Transfer.none t.stopped false t.notices
  | step => exact p.transfer_notice t

theorem transfer_shutdown (h : p.Moves t q t') :
    Transfer t.closed p.owesShutdown t.shutdowns t'.closed q.owesShutdown t'.shutdowns := by
  cases h with
  | idle hp hq =>
      rw [(owesNothing hp).2.1, (owesNothing hq).2.1]
      exact Transfer.none t.closed false t.shutdowns
  | step => exact p.transfer_shutdown t

theorem closed (h : p.Moves t q t') (hclosed : t.closed = true) : t'.closed = true := by
  cases h with
  | idle => exact hclosed
  | step => cases p <;> simp [Phase.step, hclosed]

theorem stopped (h : p.Moves t q t') (hstopped : t.stopped = true) : t'.stopped = true := by
  cases h with
  | idle => exact hstopped
  | step => cases p <;> simp [Phase.step, hstopped]

theorem stopping_of_closed (h : p.Moves t q t') (hopen : t.closed = false) (hclosed : t'.closed = true) :
    q = .stopping ∨ p.owesMark = true := by
  cases h with
  | idle => simp [hopen] at hclosed
  | step => cases p <;> simp_all [Phase.step, owesMark]

theorem owesMark_of_stopped (h : p.Moves t q t') (hrunning : t.stopped = false)
    (hstopped : t'.stopped = true) : q.owesMark = true ∨ p = .stopping := by
  cases h with
  | idle => simp [hrunning] at hstopped
  | step => cases p <;> simp_all [Phase.step, owesMark]

theorem stopped_of_stopping (h : p.Moves t q t') (hp : p = .stopping) : t'.stopped = true := by
  subst hp
  cases h with
  | idle hp => cases hp
  | step => rfl

theorem closed_of_owesMark (h : p.Moves t q t') (hp : p.owesMark = true) :
    q.owesMark = true ∨ t'.closed = true := by
  cases h with
  | idle hidle => simp [(owesNothing hidle).2.2] at hp
  | step => cases p <;> simp_all [Phase.step, owesMark]

theorem stopped_of_owesMark (h : p.Moves t q t') (hq : q.owesMark = true) :
    t'.stopped = true ∨ p.owesMark = true := by
  cases h with
  | idle _ hidle => simp [(owesNothing hidle).2.2] at hq
  | step => cases p <;> cases hclosed : t.closed <;> simp_all [Phase.step, owesMark]

end Phase.Moves

namespace Shared

variable {ω : Type} {s t : Shared ω}

/-- Both duties are kept, and a connection of which only one flag is raised is still being ended: who
raised the flag goes on to the other. -/
structure Sound (s : Shared ω) : Prop where
  notice : Duty s.teardown.stopped s.teardown.notices fun thread => (s.phase thread).owesNotice
  shutdown : Duty s.teardown.closed s.teardown.shutdowns fun thread => (s.phase thread).owesShutdown
  stops : s.teardown.closed = true → s.teardown.stopped = true ∨ ∃ thread, s.phase thread = .stopping
  marks : s.teardown.stopped = true →
    s.teardown.closed = true ∨ ∃ thread, (s.phase thread).owesMark = true
  failed : ∀ thread, (s.phase thread).owesMark = true → s.teardown.stopped = true

theorem sound_start (outbox : ω) : Sound { outbox } where
  notice := Duty.absent fun _ => rfl
  shutdown := Duty.absent fun _ => rfl
  stops := nofun
  marks := nofun
  failed := nofun

namespace Sound

variable {thread : Nat} {p : Phase}

theorem stops_moves (h : s.Sound)
    (hphase : ∀ other, t.phase other = if other = thread then p else s.phase other)
    (hmoves : (s.phase thread).Moves s.teardown p t.teardown) (hclosed : t.teardown.closed = true) :
    t.teardown.stopped = true ∨ ∃ other, t.phase other = .stopping := by
  cases hbefore : s.teardown.closed with
  | true =>
      obtain hstopped | ⟨other, hother⟩ := h.stops hbefore
      · exact Or.inl (hmoves.stopped hstopped)
      · by_cases hthread : other = thread
        · subst hthread
          exact Or.inl (hmoves.stopped_of_stopping hother)
        · exact Or.inr ⟨other, by rw [hphase, if_neg hthread, hother]⟩
  | false =>
      obtain hp | hmark := hmoves.stopping_of_closed hbefore hclosed
      · exact Or.inr ⟨thread, by rw [hphase, if_pos rfl, hp]⟩
      · exact Or.inl (hmoves.stopped (h.failed thread hmark))

theorem marks_moves (h : s.Sound)
    (hphase : ∀ other, t.phase other = if other = thread then p else s.phase other)
    (hmoves : (s.phase thread).Moves s.teardown p t.teardown) (hstopped : t.teardown.stopped = true) :
    t.teardown.closed = true ∨ ∃ other, (t.phase other).owesMark = true := by
  cases hbefore : s.teardown.stopped with
  | true =>
      obtain hclosed | ⟨other, hother⟩ := h.marks hbefore
      · exact Or.inl (hmoves.closed hclosed)
      · by_cases hthread : other = thread
        · subst hthread
          obtain hmark | hclosed := hmoves.closed_of_owesMark hother
          · exact Or.inr ⟨other, by rw [hphase, if_pos rfl, hmark]⟩
          · exact Or.inl hclosed
        · exact Or.inr ⟨other, by rw [hphase, if_neg hthread, hother]⟩
  | false =>
      obtain hmark | hstopping := hmoves.owesMark_of_stopped hbefore hstopped
      · exact Or.inr ⟨thread, by rw [hphase, if_pos rfl, hmark]⟩
      · have howes : (s.phase thread).owesShutdown = true := by rw [hstopping]; rfl
        exact Or.inl (hmoves.closed (h.shutdown.flag_of_owes howes))

end Sound

variable [CommandWriter ω]

theorem Step.moves (h : Step s t) : ∃ (thread : Nat) (p : Phase),
    (∀ other, t.phase other = if other = thread then p else s.phase other) ∧
      (s.phase thread).Moves s.teardown p t.teardown := by
  cases h with
  | call thread call rest =>
      exact ⟨thread, .writing call, fun _ => rfl, .idle (by rw [rest]; rfl) rfl⟩
  | close thread rest => exact ⟨thread, .marking, fun _ => rfl, .idle (by rw [rest]; rfl) rfl⟩
  | fail thread rest => exact ⟨thread, .failing, fun _ => rfl, .idle (by rw [rest]; rfl) rfl⟩
  | advance thread =>
      cases hphase : s.phase thread with
      | writing call =>
          rcases hrun : call.run s.outbox with ⟨fault | _, outbox⟩
          · refine ⟨thread, .marking, ?_, ?_⟩
            · simp [Shared.advance, hphase, hrun, enter]
            · simpa [Shared.advance, hphase, hrun, enter] using Phase.Moves.idle rfl rfl
          · refine ⟨thread, .atRest, ?_, ?_⟩
            · simp [Shared.advance, hphase, hrun, enter]
            · simpa [Shared.advance, hphase, hrun, enter] using Phase.Moves.idle rfl rfl
      | atRest | marking | stopping | telling | shutting | failing | reporting | withdrawing =>
          refine ⟨thread, ((s.phase thread).step s.teardown).1, ?_, ?_⟩
          · simp [Shared.advance, hphase, enter]
          · simpa [Shared.advance, hphase, enter] using Phase.Moves.step (s.phase thread)

theorem Sound.step (h : s.Sound) (hstep : Step s t) : t.Sound := by
  obtain ⟨thread, p, hphase, hmoves⟩ := hstep.moves
  refine ⟨?_, ?_, h.stops_moves hphase hmoves, h.marks_moves hphase hmoves, ?_⟩
  · simpa only [hphase, apply_ite Phase.owesNotice] using h.notice.step thread hmoves.transfer_notice
  · simpa only [hphase, apply_ite Phase.owesShutdown] using h.shutdown.step thread hmoves.transfer_shutdown
  · intro other hother
    by_cases hthread : other = thread
    · rw [hphase, if_pos hthread] at hother
      obtain hstopped | hmark := hmoves.stopped_of_owesMark hother
      · exact hstopped
      · exact hmoves.stopped (h.failed thread hmark)
    · rw [hphase, if_neg hthread] at hother
      exact hmoves.stopped (h.failed other hother)

theorem sound_of_reachable {outbox : ω} (h : Reachable outbox s) : s.Sound := by
  induction h with
  | start => exact sound_start outbox
  | step _ hstep ih => exact ih.step hstep

theorem flags_of_steps (h : Relation.ReflTransGen Step s t) :
    (s.teardown.closed = true → t.teardown.closed = true) ∧
      (s.teardown.stopped = true → t.teardown.stopped = true) := by
  induction h with
  | refl => exact ⟨id, id⟩
  | tail _ hstep ih =>
      obtain ⟨thread, p, _, hmoves⟩ := hstep.moves
      exact ⟨fun h => hmoves.closed (ih.1 h), fun h => hmoves.stopped (ih.2 h)⟩

/-- However the steps of the threads fall, the handler is told at most once, the socket is shut down
at most once, and no flag is ever lowered. Whenever no thread is midway, both flags are raised and
both things have been done, once, or neither flag is raised and nothing has been done. -/
theorem ends_once (outbox : ω) (s : Shared ω) (h : Reachable outbox s) :
    s.teardown.notices ≤ 1 ∧ s.teardown.shutdowns ≤ 1 ∧
    (∀ t, Relation.ReflTransGen Step s t →
      (s.teardown.closed = true → t.teardown.closed = true) ∧
      (s.teardown.stopped = true → t.teardown.stopped = true)) ∧
    ((∀ thread, (s.phase thread).midway = false) →
      s.teardown.closed = s.teardown.stopped ∧
      s.teardown.notices = (if s.teardown.closed then 1 else 0) ∧
      s.teardown.shutdowns = (if s.teardown.closed then 1 else 0)) := by
  have hsound := sound_of_reachable h
  refine ⟨hsound.notice.times_le, hsound.shutdown.times_le, fun t => flags_of_steps, ?_⟩
  intro hrest
  have hflags : s.teardown.closed = s.teardown.stopped := by
    rw [Bool.eq_iff_iff]
    constructor
    · intro hclosed
      obtain hstopped | ⟨thread, hthread⟩ := hsound.stops hclosed
      · exact hstopped
      · exact absurd hthread (Phase.owesNothing (hrest thread)).2.2.2
    · intro hstopped
      obtain hclosed | ⟨thread, hthread⟩ := hsound.marks hstopped
      · exact hclosed
      · exact absurd hthread (by simp [(Phase.owesNothing (hrest thread)).2.2.1])
  have hnotices := hsound.notice.times_eq fun thread => (Phase.owesNothing (hrest thread)).1
  rw [← hflags] at hnotices
  exact ⟨hflags, hnotices, hsound.shutdown.times_eq fun thread => (Phase.owesNothing (hrest thread)).2.1⟩

theorem ends_once_crossing :
    let outbox : Outbox Pacing.Schedule := { pacer := ⟨[], 0⟩ }
    let crossed := ((({ outbox } : Shared _).enter 0 .marking).advance 0 |>.enter 1 .failing).advance 1
    let s := (((crossed.advance 0).advance 1).advance 0).advance 1
    crossed.phase 0 = .stopping ∧ crossed.phase 1 = .reporting ∧ Reachable outbox s ∧
    (∀ thread, (s.phase thread).midway = false) ∧ s.teardown.closed = true ∧
    s.teardown.notices = (if s.teardown.closed then 1 else 0) ∧
    s.teardown.shutdowns = (if s.teardown.closed then 1 else 0) := by
  intro outbox crossed s
  have hreachable : Reachable outbox s := by
    refine .step (.step (.step (.step ?_ (.advance _ 0)) (.advance _ 1)) (.advance _ 0)) (.advance _ 1)
    refine .step (.step ?_ (.fail _ 1 rfl)) (.advance _ 1)
    exact .step (.step .start (.close _ 0 rfl)) (.advance _ 0)
  have hrest : ∀ thread, (s.phase thread).midway = false := by
    intro thread
    match thread with
    | 0 | 1 | _ + 2 => rfl
  exact ⟨rfl, rfl, hreachable, hrest, rfl, ((ends_once outbox s hreachable).2.2.2 hrest).2⟩

end Shared

end SegmentClient.Connection
