import SegmentClient.Proofs.Connection.Session
import SegmentClient.Proofs.Outbox.Pending

namespace SegmentClient

namespace CommandWriter

inductive Call
  | request (request : Request) (result : Except FrameFault Unit)
  | append (append : Append) (result : Except FrameFault Unit)
  | flush (result : Except FrameFault Unit)
deriving DecidableEq

structure Observed (ω : Type) where
  inner : ω
  calls : List Call := []

variable {ω : Type} [CommandWriter ω]

instance : CommandWriter (Observed ω) where
  putRequest out request :=
    match putRequest out.inner request with
    | (result, inner) => (result, ⟨inner, out.calls ++ [.request request result]⟩)
  putAppend out append :=
    match putAppend out.inner append with
    | (result, inner) => (result, ⟨inner, out.calls ++ [.append append result]⟩)
  flush out :=
    match flush out.inner with
    | (result, inner) => (result, ⟨inner, out.calls ++ [.flush result]⟩)

/-- The calls that appends come to, and the result: all appends and one flush, or the appends up to the
first that fails. -/
inductive Fared (appends : List Append) : List Call → Except FrameFault Unit → Prop
  | flushed (result : Except FrameFault Unit) :
      Fared appends (appends.map (.append · (.ok ())) ++ [.flush result]) result
  | broken (before : List Append) (append : Append) (after : List Append) (fault : FrameFault) :
      appends = before ++ append :: after →
      Fared appends (before.map (.append · (.ok ())) ++ [.append append (.error fault)]) (.error fault)

theorem Fared.cons {appends : List Append} {calls : List Call} {result : Except FrameFault Unit}
    (h : Fared appends calls result) (append : Append) :
    Fared (append :: appends) (.append append (.ok ()) :: calls) result := by
  cases h with
  | flushed => exact .flushed result
  | broken before refused after fault hsplit =>
      exact .broken (append :: before) refused after fault (congrArg (List.cons append) hsplit)

end CommandWriter

namespace Connection

section Completing

open CommandWriter

variable {ω : Type} [CommandWriter ω]

end Completing

section Carrying

open Outbox

variable {σ : Type} [Pacing σ]

def toldEach (appends : List Append) (pacer : σ) : σ :=
  appends.foldl (fun pacer append => (Operation.append append).told pacer) pacer

/-- Appends have all gone through a connection that is still open, and nothing is held back behind one. -/
structure Carried (c next : Connection (Outbox σ)) (appends : List Append) : Prop where
  notClosed : next.closed = false
  notPoisoned : next.poisoned = false
  sturdy : next.outbox.out.sink.Sturdy
  content : next.outbox.out.content = c.outbox.out.content ++ appends.flatMap (·.frame.bytes)
  pacer : next.outbox.pacer = toldEach appends c.outbox.pacer
  held : c.outbox.out.held = #[] ∨ appends ≠ [] → next.outbox.out.held = #[]

namespace Carried

variable {a b c : Connection (Outbox σ)} {first second : List Append}

theorem trans (h : Carried a b first) (k : Carried b c second) : Carried a c (first ++ second) where
  notClosed := k.notClosed
  notPoisoned := k.notPoisoned
  sturdy := k.sturdy
  content := by rw [k.content, h.content, List.flatMap_append, List.append_assoc]
  pacer := by rw [k.pacer, h.pacer, toldEach, toldEach, toldEach, List.foldl_append]
  held := by
    rintro (hheld | hne)
    · exact k.held (Or.inl (h.held (Or.inl hheld)))
    · cases hfirst : first with
      | nil => exact k.held (Or.inr (by rwa [hfirst] at hne))
      | cons => exact k.held (Or.inl (h.held (Or.inr (by rw [hfirst]; exact nofun))))

theorem taken (h : Carried a b first) (hheld : a.outbox.out.held = #[] ∨ first ≠ []) :
    b.outbox.out.sink.taken = a.outbox.out.content ++ first.flatMap (·.frame.bytes) := by
  rw [← h.content, BufferedSink.content, h.held hheld, List.append_nil]

end Carried

end Carrying

end Connection

end SegmentClient
