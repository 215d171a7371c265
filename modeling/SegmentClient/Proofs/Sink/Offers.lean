import SegmentClient.Proofs.Sink.Growth

namespace SegmentClient.Sink

def answer : Option Turn → List UInt8 → Call
  | none, bytes => ⟨bytes.length, bytes⟩
  | some (.take most), bytes => ⟨bytes.length, bytes.take most⟩
  | some (.fail _), bytes => ⟨bytes.length, []⟩

def Turn.fault? : Turn → Option StreamFault
  | take 0 => some .sinkStalled
  | take (_ + 1) => none
  | fail kind => if kind = .interrupted then none else some (.ofKind kind)

/-- Calls of which each offers what is due once so many bytes have been taken; none offers nothing. -/
inductive Served (due : Nat → List UInt8) : (done : Nat) → List Turn → List Call → Prop
  | nil (done : Nat) (turns : List Turn) : Served due done turns []
  | cons {done : Nat} {turns : List Turn} {call : Call} {calls : List Call} : due done ≠ [] →
      call = answer turns.head? (due done) → Served due (done + call.taken.length) turns.tail calls →
      Served due done turns (call :: calls)

inductive Spent : List Turn → Option StreamFault → Prop
  | unharmed {turns : List Turn} : (∀ turn ∈ turns, turn.fault? = none) → Spent turns none
  | broken (before : List Turn) {turn : Turn} {fault : StreamFault} : (∀ turn ∈ before, turn.fault? = none) →
      turn.fault? = some fault → Spent (before ++ [turn]) (some fault)

/-- The calls by which bytes were written, and the fault that ended it. -/
structure Delivery (due : Nat → List UInt8) (bytes : List UInt8) (turns : List Turn) (calls : List Call)
    (fault? : Option StreamFault) : Prop where
  served : Served due 0 turns calls
  spent : Spent (turns.take calls.length) fault?
  taken : calls.flatMap (·.taken) <+: bytes
  whole : fault? = none ↔ calls.flatMap (·.taken) = bytes

namespace Served

variable {due due' : Nat → List UInt8} {done : Nat} {turns : List Turn} {first second : List Call}

theorem mono (h : Served due done turns first) (hdue : ∀ count, due count ≠ [] → due' count = due count) :
    Served due' done turns first := by
  induction h with
  | nil => exact .nil _ _
  | cons hne hcall _ ih =>
      have hsame := hdue _ hne
      exact .cons (hsame ▸ hne) (hsame ▸ hcall) ih

theorem shift {skipped : Nat} (h : Served (fun count => due (skipped + count)) done turns first) :
    Served due (skipped + done) turns first := by
  induction h with
  | nil => exact .nil _ _
  | cons hne hcall _ ih => exact .cons hne hcall (by rwa [Nat.add_assoc])

theorem append (h : Served due done turns first)
    (k : Served due (done + (first.flatMap (·.taken)).length) (turns.drop first.length) second) :
    Served due done turns (first ++ second) := by
  induction h with
  | nil => exact k
  | cons hne hcall _ ih =>
      refine .cons hne hcall (ih ?_)
      rwa [List.flatMap_cons, List.length_append, ← Nat.add_assoc, List.length_cons, ← List.drop_tail] at k

end Served

theorem Spent.unharmed_of_none {turns : List Turn} (h : Spent turns none) :
    ∀ turn ∈ turns, turn.fault? = none := by
  cases h with
  | unharmed hturns => exact hturns

theorem Spent.exists_broken {turns : List Turn} {fault : StreamFault} (h : Spent turns (some fault)) :
    ∃ before turn, turns = before ++ [turn] ∧ (∀ turn ∈ before, turn.fault? = none) ∧
      turn.fault? = some fault := by
  cases h with
  | broken before hbefore hfault => exact ⟨before, _, rfl, hbefore, hfault⟩

theorem Spent.append {before after : List Turn} {fault? : Option StreamFault} (hbefore : Spent before none)
    (h : Spent after fault?) : Spent (before ++ after) fault? := by
  have hall := hbefore.unharmed_of_none
  cases h with
  | unharmed hafter => exact .unharmed (List.forall_mem_append.mpr ⟨hall, hafter⟩)
  | broken last hafter hfault =>
      rw [← List.append_assoc]
      exact .broken (before ++ last) (List.forall_mem_append.mpr ⟨hall, hafter⟩) hfault

namespace Delivery

variable {due due' : Nat → List UInt8} {bytes more : List UInt8} {turns : List Turn} {turn : Turn}
  {first second : List Call} {fault? : Option StreamFault}

theorem mono (h : Delivery due bytes turns first fault?)
    (hdue : ∀ count, due count ≠ [] → due' count = due count) : Delivery due' bytes turns first fault? :=
  ⟨h.served.mono hdue, h.spent, h.taken, h.whole⟩

theorem trans (h : Delivery due bytes turns first none)
    (k : Delivery (fun count => due (bytes.length + count)) more (turns.drop first.length) second fault?) :
    Delivery due (bytes ++ more) turns (first ++ second) fault? where
  served := by
    refine h.served.append ?_
    rw [h.whole.mp rfl, Nat.zero_add]
    exact k.served.shift
  spent := by
    rw [List.length_append, List.take_add]
    exact h.spent.append k.spent
  taken := by
    rw [List.flatMap_append, h.whole.mp rfl]
    exact (List.prefix_append_right_inj bytes).mpr k.taken
  whole := by
    rw [List.flatMap_append, h.whole.mp rfl, List.append_cancel_left_eq]
    exact k.whole

theorem broken {fault : StreamFault} (h : Delivery due bytes turns first (some fault)) (more : List UInt8) :
    Delivery due (bytes ++ more) turns first (some fault) where
  served := h.served
  spent := h.spent
  taken := h.taken.trans (List.prefix_append bytes more)
  whole := by
    refine iff_of_false nofun fun hall => ?_
    have hlength := h.taken.length_le
    rw [hall, List.length_append] at hlength
    have hnil : more = [] := List.length_eq_zero_iff.mp (by omega)
    rw [hnil, List.append_nil] at hall
    cases h.whole.mpr hall

theorem nothing (due : Nat → List UInt8) (turns : List Turn) : Delivery due [] turns [] none :=
  ⟨.nil 0 turns, .unharmed nofun, List.prefix_rfl, iff_of_true rfl rfl⟩

theorem call (due : Nat → List UInt8) (turns : List Turn) (hdue : due 0 ≠ []) (hturn : turn.fault? = none) :
    Delivery due (answer (some turn) (due 0)).taken (turn :: turns) [answer (some turn) (due 0)] none := by
  have htaken : [answer (some turn) (due 0)].flatMap (·.taken) = (answer (some turn) (due 0)).taken :=
    List.flatMap_singleton ..
  refine ⟨.cons hdue rfl (.nil _ _), .unharmed ?_, htaken ▸ List.prefix_rfl, iff_of_true rfl htaken⟩
  exact List.forall_mem_singleton.mpr hturn

theorem lastCall (due : Nat → List UInt8) {fault : StreamFault} (hdue : due 0 ≠ [])
    (hturn : turn.fault? = some fault) (hnone : (answer (some turn) (due 0)).taken = []) :
    Delivery due (due 0) (turn :: turns) [answer (some turn) (due 0)] (some fault) := by
  have htaken : [answer (some turn) (due 0)].flatMap (·.taken) = [] := by
    rw [List.flatMap_singleton, hnone]
  refine ⟨.cons hdue rfl (.nil _ _), .broken [] nofun hturn, ?_, iff_of_false nofun ?_⟩
  · rw [htaken]
    exact List.nil_prefix
  · rw [htaken]
    exact fun h => hdue h.symm

theorem step {rest : List UInt8} (hne : bytes ≠ []) (hturn : turn.fault? = none)
    (hrest : (answer (some turn) bytes).taken ++ rest = bytes)
    (h : Delivery rest.drop rest turns second fault?) :
    Delivery bytes.drop bytes (turn :: turns) (answer (some turn) bytes :: second) fault? := by
  have hcall := call bytes.drop turns hne hturn
  have hrests : ∀ count, rest.drop count ≠ [] →
      bytes.drop ((answer (some turn) bytes).taken.length + count) = rest.drop count := by
    intro count _
    rw [← List.drop_drop, ← congrArg (List.drop _) hrest, List.drop_left]
  have hboth := hcall.trans (h.mono hrests)
  rwa [List.drop_zero, hrest] at hboth

end Delivery

def Halt.fault : Halt → StreamFault
  | stalled => .sinkStalled
  | failed kind => .ofKind kind

def past (sink : Sink) (calls : List Call) : Sink :=
  { sink with turns := sink.turns.drop calls.length, calls := sink.calls ++ calls.toArray }

theorem past_past (sink : Sink) (first second : List Call) :
    (sink.past first).past second = sink.past (first ++ second) := by
  simp [past, List.drop_drop]

theorem offer_delivers (turns : List Turn) (calls : Array Call) (bytes : List UInt8) :
    ∃ new : List Call,
      (offer turns calls bytes).turns = turns.drop new.length ∧
      (offer turns calls bytes).calls = calls ++ new.toArray ∧
      Delivery bytes.drop bytes turns new ((offer turns calls bytes).halt?.map Halt.fault) := by
  fun_induction offer turns calls bytes with
  | case1 turns calls => exact ⟨[], rfl, by simp, .nothing _ turns⟩
  | case2 calls bytes hne =>
      refine ⟨[answer none bytes], rfl, by simp [answer], .cons hne rfl (.nil _ _), .unharmed (by simp), ?_, ?_⟩
      · simp [answer]
      · simp [answer]
  | case3 turns calls bytes hne ih =>
      obtain ⟨new, hturns, hcalls, hnew⟩ := ih
      refine ⟨answer (some (.fail .interrupted)) bytes :: new, hturns, ?_, ?_⟩
      · rw [hcalls]
        simp [answer]
      · exact hnew.step hne rfl rfl
  | case4 kind turns calls bytes hne hkind =>
      refine ⟨[answer (some (.fail kind)) bytes], rfl, by simp [answer], ?_⟩
      exact .lastCall bytes.drop hne (if_neg hkind) rfl
  | case5 turns calls bytes hne =>
      refine ⟨[answer (some (.take 0)) bytes], rfl, by simp [answer], ?_⟩
      exact .lastCall bytes.drop hne rfl rfl
  | case6 most turns calls bytes hne ih =>
      obtain ⟨new, hturns, hcalls, hnew⟩ := ih
      refine ⟨answer (some (.take (most + 1))) bytes :: new, hturns, ?_, ?_⟩
      · rw [hcalls]
        simp [answer]
      · exact hnew.step hne rfl (List.take_append_drop (most + 1) bytes)

theorem writeAll_cases (sink : Sink) (bytes : List UInt8) : ∃ calls : List Call,
    (sink.writeAll bytes = (.ok (), sink.past calls) ∧ Delivery bytes.drop bytes sink.turns calls none) ∨
    ∃ fault, sink.writeAll bytes = (.error fault, sink.past calls) ∧
      Delivery bytes.drop bytes sink.turns calls (some fault) := by
  obtain ⟨calls, hturns, hcalls, hdelivery⟩ := offer_delivers sink.turns sink.calls bytes
  have hpush : (sink.push bytes).1 = sink.past calls := by
    simp only [push, past, hturns, hcalls]
  have hhalt : (sink.push bytes).2.2 = (offer sink.turns sink.calls bytes).halt? := rfl
  refine ⟨calls, ?_⟩
  rw [← hhalt] at hdelivery
  rw [writeAll, ← hpush]
  generalize sink.push bytes = pushed at hdelivery
  obtain ⟨after, left, _ | _ | kind⟩ := pushed
  · exact Or.inl ⟨rfl, hdelivery⟩
  · exact Or.inr ⟨_, rfl, hdelivery⟩
  · exact Or.inr ⟨_, rfl, hdelivery⟩

end SegmentClient.Sink
