import SegmentClient.Proofs.Outbox.Pending
import SegmentClient.Proofs.Pacing.Numbering

namespace SegmentClient.Outbox

open Operation

/-- The number is at most one above the acknowledged one, and not so far below it that their difference
overflows. -/
structure Next (acked number : Int64) : Prop where
  le : number.toInt ≤ acked.toInt + 1
  inRange : -2 ^ 63 ≤ number.toInt - acked.toInt

theorem Next.sub_le {acked number : Int64} (h : Next acked number) : number - acked ≤ 1 := by
  have hle := h.le
  have hrange := h.inRange
  rw [Int64.le_iff_toInt_le, Pacing.toInt_sub_of_inRange hrange (by omega)]
  change number.toInt - acked.toInt ≤ 1
  omega

theorem blockSize_of_next {pacer : Adaptive} {number : Int64} (h : Next pacer.lastAck number) (size : Nat) :
    Pacing.blockSize (Pacing.noteAppend pacer number size) = 0 :=
  if_pos h.sub_le

namespace Operation

def ack? : Operation → Option Int64
  | ack n => some n
  | request _ | append _ | flush => none

theorem lastAck_told (op : Operation) (pacer : Adaptive) :
    (op.told pacer).lastAck = op.ack?.getD pacer.lastAck := by
  cases op with
  | append a =>
      rw [told]
      split <;> rfl
  | request | flush | ack => rfl

theorem accepted?_eq_some_iff {op : Operation} {a : Append} :
    op.accepted? = some a ↔ op = .append a ∧ a.frame.fits = true := by
  cases op with
  | append b =>
      rw [accepted?]
      split
      · rename_i hfits
        rw [Option.some.injEq, append.injEq]
        exact ⟨fun h => ⟨h, h ▸ hfits⟩, fun h => h.1⟩
      · rename_i hfits
        refine iff_of_false (by rintro ⟨⟩) ?_
        rintro ⟨h, hb⟩
        cases h
        exact hfits hb
  | request | flush | ack =>
      refine iff_of_false (by rintro ⟨⟩) ?_
      rintro ⟨h, _⟩
      cases h

end Operation

structure Clear {σ : Type} (box : Outbox σ) : Prop where
  held : box.out.held = #[]
  pending : box.pending = 0

theorem Clear.taken {σ : Type} {box : Outbox σ} (h : Clear box) : box.out.sink.taken = box.out.content := by
  rw [BufferedSink.content, h.held, List.append_nil]

/-- Every append bears the next number or an earlier one; `acked` is the last that was acknowledged before. -/
inductive Idle : (acked : Int64) → List Operation → Prop
  | nil {acked : Int64} : Idle acked []
  | cons {acked : Int64} {op : Operation} {ops : List Operation} :
      (∀ a, op = .append a → Next acked a.eventNumber) → Idle (op.ack?.getD acked) ops → Idle acked (op :: ops)

theorem Idle.left {acked : Int64} {first second : List Operation} (h : Idle acked (first ++ second)) :
    Idle acked first := by
  induction first generalizing acked with
  | nil => exact .nil
  | cons op first ih =>
      cases h with
      | cons hnext hrest => exact .cons hnext (ih hrest)

def inTurn (appends : List Append) : List Operation := appends.flatMap fun a => [.append a, .ack a.eventNumber]

inductive Numbered : (first : Int) → List Append → Prop
  | nil {first : Int} : Numbered first []
  | cons {first : Int} {a : Append} {appends : List Append} : a.eventNumber.toInt = first →
      Numbered (first + 1) appends → Numbered first (a :: appends)

theorem idle_inTurn {appends : List Append} {acked : Int64} (h : Numbered (acked.toInt + 1) appends) :
    Idle acked (inTurn appends) := by
  induction appends generalizing acked with
  | nil => exact .nil
  | cons a appends ih =>
      cases h with
      | cons hnumber hrest =>
          rw [← hnumber] at hrest
          have hnext : Next acked a.eventNumber := ⟨Int.le_of_eq hnumber, by omega⟩
          refine .cons (fun _ happend => ?_) (.cons nofun (ih hrest))
          cases happend
          exact hnext

section Adaptive

variable {box : Outbox Adaptive}

theorem due_of_next {a : Append} (hfits : a.frame.fits = true) (h : Next box.pacer.lastAck a.eventNumber) :
    Due box (.append a) := by
  refine .append hfits ?_
  rw [blockSize_of_next h]
  exact Nat.zero_le _

theorem clear_perform {op : Operation} (hsink : box.out.sink.Sturdy)
    (hnext : ∀ a, op = .append a → Next box.pacer.lastAck a.eventNumber)
    (hclear : Clear box ∨ ∃ a, op.accepted? = some a) : Clear (op.perform box).2 := by
  have heffect := op.effect_perform hsink
  generalize op.perform box = done at heffect ⊢
  obtain ⟨result, after⟩ := done
  cases heffect with
  | refused hframe hfits =>
      refine hclear.resolve_right ?_
      rintro ⟨a, haccepted⟩
      obtain ⟨rfl, hfits'⟩ := accepted?_eq_some_iff.mp haccepted
      cases hframe
      cases hfits.symm.trans hfits'
  | heldBack quiet _ pending takes =>
      have hnone : op.accepted? = none := by
        rw [Option.eq_none_iff_forall_ne_some]
        intro a haccepted
        obtain ⟨rfl, hfits⟩ := accepted?_eq_some_iff.mp haccepted
        exact quiet (due_of_next hfits (hnext a rfl))
      have hload : op.load = 0 := by rw [load, hnone, Option.elim_none]
      obtain ⟨hheld, hpending⟩ := hclear.resolve_right (by rintro ⟨a, ha⟩; cases hnone.symm.trans ha)
      have htakes := takes.held
      rw [hload, hheld] at htakes
      exact ⟨Array.size_eq_zero_iff.mp (Nat.le_zero.mp htakes), by rw [pending, hload, hpending]⟩
  | sent _ _ flushed => exact ⟨flushed.held, flushed.pending⟩

theorem lastAck_run (ops : List Operation) (hsink : box.out.sink.Sturdy) :
    (run ops box).2.pacer.lastAck = (ops.filterMap ack?).getLastD box.pacer.lastAck := by
  induction ops using List.reverseRecOn with
  | nil => rfl
  | append_singleton ops op ih =>
      rw [run_concat, (op.effect_perform (sturdy_run ops hsink)).pacer_eq, lastAck_told, ih,
        List.filterMap_append]
      cases hack : op.ack? <;> simp [hack]

theorem clear_run (ops : List Operation) (hsink : box.out.sink.Sturdy) (hidle : Idle box.pacer.lastAck ops)
    (hclear : Clear box ∨ ∃ op ∈ ops, ∃ a, op.accepted? = some a) : Clear (run ops box).2 := by
  induction ops generalizing box with
  | nil =>
      refine hclear.resolve_right ?_
      rintro ⟨_, hmem, _⟩
      cases hmem
  | cons op ops ih =>
      cases hidle with
      | cons hnext hrest =>
          rw [← lastAck_told, ← (op.effect_perform hsink).pacer_eq] at hrest
          apply ih (op.sturdy_perform hsink) hrest
          obtain hclear | ⟨accepted, hmem, haccepted⟩ := hclear
          · exact Or.inl (clear_perform hsink hnext (Or.inl hclear))
          · obtain rfl | hlater := List.mem_cons.mp hmem
            · exact Or.inl (clear_perform hsink hnext (Or.inr haccepted))
            · exact Or.inr ⟨accepted, hlater, haccepted⟩

/-- With a sturdy sink, an append within the limit whose number is the next, or an earlier one, is
sent at once together with all that was held back before, whatever the averages are. So a writer that
does not get ahead of the acknowledgements leaves nothing behind. -/
theorem clear_of_next (hsink : box.out.sink.Sturdy) (before : List Operation) :
    let here := (run before box).2
    let acked := (before.filterMap ack?).getLastD box.pacer.lastAck
    (∀ a : Append, a.frame.fits = true → Next acked a.eventNumber →
      ((append a).perform here).1 = .ok () ∧ Clear ((append a).perform here).2 ∧
      ((append a).perform here).2.out.sink.taken = here.out.content ++ a.frame.bytes) ∧
    ∀ appends, Numbered (acked.toInt + 1) appends → ∀ part, part <+: inTurn appends →
      (Clear here ∨ ∃ a, .append a ∈ part ∧ a.frame.fits = true) →
      Clear (run part here).2 ∧
      (run part here).2.out.sink.taken = here.out.content ++ part.flatMap Operation.bytes := by
  intro here acked
  have hacked : here.pacer.lastAck = acked := lastAck_run before hsink
  have hhere : here.out.sink.Sturdy := sturdy_run before hsink
  refine ⟨fun a hfits hnext => ?_, ?_⟩
  · rw [← hacked] at hnext
    have hclear : Clear ((append a).perform here).2 := by
      refine clear_perform hhere (fun _ happend => ?_) (Or.inr ⟨a, accepted?_eq_some_iff.mpr ⟨rfl, hfits⟩⟩)
      cases happend
      exact hnext
    have hcontent := (append a).content_perform here ((append a).cameThrough_of_sturdy hhere)
    rw [bytes_of_frame rfl hfits, ← hclear.taken] at hcontent
    refine ⟨?_, hclear, hcontent⟩
    refine ((append a).effect_perform hhere).ok_or_refused.resolve_right ?_
    rintro ⟨_, hframe, hno, _⟩
    cases hframe
    cases hno.symm.trans hfits
  · rintro appends hnumbered part ⟨rest, hpart⟩ hclear
    rw [← hacked] at hnumbered
    have hidle := idle_inTurn hnumbered
    rw [← hpart] at hidle
    have hrun : Clear (run part here).2 := by
      apply clear_run part hhere hidle.left
      refine hclear.imp_right ?_
      rintro ⟨a, hmem, hfits⟩
      exact ⟨.append a, hmem, a, accepted?_eq_some_iff.mpr ⟨rfl, hfits⟩⟩
    exact ⟨hrun, hrun.taken.trans (content_of_sturdy part hhere)⟩

theorem clear_of_next_burst :
    let box : Outbox Adaptive := { out := { sink := { turns := [.take 1, .fail .interrupted] } }, pacer := {} }
    let burst := [.append (.single 1 1 [1]), .append (.single 1 2 [2]), .append (.single 1 3 [3]), .ack 3]
    let a := .single 1 4 [4]
    let turn := inTurn [a, .single 1 5 []]
    (box.out.sink.Sturdy ∧ a.frame.fits = true ∧ Next 3 a.eventNumber) ∧
    ((append a).perform (run burst box).2).1 = .ok () ∧ Clear (run turn (run burst box).2).2 ∧
    (run turn (run burst box).2).2.out.sink.taken =
      (run burst box).2.out.content ++ turn.flatMap Operation.bytes := by
  intro box burst a turn
  have hsink : box.out.sink.Sturdy := ⟨by simp [box], nofun⟩
  have hfits : a.frame.fits = true := by decide
  have hnext : Next 3 a.eventNumber := ⟨by decide, by decide⟩
  obtain ⟨hone, hall⟩ := clear_of_next hsink burst
  have hturn := hall _ (.cons rfl (.cons rfl .nil)) turn List.prefix_rfl
    (Or.inr ⟨a, List.mem_cons_self .., hfits⟩)
  exact ⟨⟨hsink, hfits, hnext⟩, (hone a hfits hnext).1, hturn⟩

end Adaptive

end SegmentClient.Outbox
