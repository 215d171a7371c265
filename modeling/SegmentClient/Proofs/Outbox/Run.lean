import SegmentClient.Outbox
import SegmentClient.Proofs.Sink.Growth
import Mathlib.Tactic.ByContra

namespace SegmentClient.Outbox

variable {σ : Type}

/-- What may be asked of an outbox. Acknowledgements come from the listener, in between. -/
inductive Operation
  | request (request : Request)
  | append (append : Append)
  | flush
  | ack (eventNumber : Int64)
deriving DecidableEq, Repr

namespace Operation

def perform [Pacing σ] : Operation → Outbox σ → Except FrameFault Unit × Outbox σ
  | request r, box => box.putRequest r
  | append a, box => box.putAppend a
  | flush, box => box.flush
  | ack n, box => (.ok (), (box.noteAck n).2)

def frame? : Operation → Option Frame
  | request r => some r.frame
  | append a => some a.frame
  | flush | ack _ => none

/-- The bytes that an operation is to add: its frame, unless that is over the limit. -/
def bytes (op : Operation) : List UInt8 := (op.frame?.toList.filter Frame.fits).flatMap Frame.bytes

theorem bytes_of_frame {op : Operation} {frame : Frame} (h : op.frame? = some frame)
    (hfits : frame.fits = true) :
    op.bytes = frame.bytes := by
  simp [bytes, h, hfits]

end Operation

def run [Pacing σ] : List Operation → Outbox σ → List (Except FrameFault Unit) × Outbox σ
  | [], box => ([], box)
  | op :: ops, box =>
    match op.perform box with
    | (result, box) =>
      match run ops box with
      | (results, box) => (result :: results, box)

theorem run_append [Pacing σ] (first second : List Operation) (box : Outbox σ) :
    (run (first ++ second) box).2 = (run second (run first box).2).2 := by
  induction first generalizing box with
  | nil => rfl
  | cons op first ih => exact ih (op.perform box).2

theorem content_flush (box : Outbox σ) : box.flush.2.out.content = box.out.content := by
  have hcontent := box.out.content_flush
  rcases hflush : box.out.flush with ⟨fault | _, out⟩ <;> simpa only [flush, hflush] using hcontent

theorem held_flush (box : Outbox σ) (h : box.flush.1 = .ok ()) : box.flush.2.out.held = #[] := by
  have hheld := box.out.held_flush
  rcases hflush : box.out.flush with ⟨fault | _, out⟩
  · simp only [flush, hflush, reduceCtorEq] at h
  · simpa only [flush, hflush] using hheld (by rw [hflush])

theorem flush_ne_tooLarge (box : Outbox σ) (size : Nat) : box.flush.1 ≠ .error (.tooLarge size) := by
  rcases hflush : box.out.flush with ⟨fault | _, out⟩ <;> simp [flush, hflush]

theorem putRequest_of_write {box : Outbox σ} {request : Request} {size : Nat} {out : BufferedSink maxBlock}
    (h : request.frame.write box.out = (.ok size, out)) : box.putRequest request = flush { box with out } := by
  rw [putRequest, h]

theorem putRequest_of_tooLarge (box : Outbox σ) (request : Request)
    (h : maxPayload < request.frame.payload.length) :
    box.putRequest request = (.error (.tooLarge request.frame.payload.length), box) := by
  rw [putRequest, Frame.write_of_tooLarge _ _ h]

theorem putAppend_of_tooLarge [Pacing σ] (box : Outbox σ) (append : Append)
    (h : maxPayload < append.frame.payload.length) :
    box.putAppend append = (.error (.tooLarge append.frame.payload.length), box) := by
  rw [putAppend, Frame.write_of_tooLarge _ _ h]

theorem grows_putRequest (box : Outbox σ) (request : Request) :
    Grows box.out.content request.frame.bytes (box.putRequest request).2.out.content
      ((box.putRequest request).1 = .ok ()) := by
  have hgrows := request.frame.grows_write box.out
  rcases hwrite : request.frame.write box.out with ⟨fault | size, out⟩
  · rw [hwrite] at hgrows
    simp only [putRequest, hwrite]
    exact hgrows.mono (by simp)
  · rw [hwrite] at hgrows
    simp only [putRequest, hwrite, content_flush]
    exact hgrows.mono (fun _ => ⟨size, rfl⟩)

theorem grows_putAppend [Pacing σ] (box : Outbox σ) (append : Append) :
    Grows box.out.content append.frame.bytes (box.putAppend append).2.out.content
      ((box.putAppend append).1 = .ok ()) := by
  have hgrows := append.frame.grows_write box.out
  rcases hwrite : append.frame.write box.out with ⟨fault | size, out⟩
  · rw [hwrite] at hgrows
    simp only [putAppend, hwrite]
    exact hgrows.mono (by simp)
  · rw [hwrite] at hgrows
    simp only [putAppend, hwrite]
    split
    · rw [content_flush]
      exact hgrows.mono (fun _ => ⟨size, rfl⟩)
    · exact hgrows.mono (fun _ => ⟨size, rfl⟩)

theorem held_putRequest (box : Outbox σ) (request : Request) (h : (box.putRequest request).1 = .ok ()) :
    (box.putRequest request).2.out.held = #[] := by
  rcases hwrite : request.frame.write box.out with ⟨fault | size, out⟩
  · simp only [putRequest, hwrite, reduceCtorEq] at h
  · simp only [putRequest, hwrite] at h ⊢
    exact held_flush _ h

namespace Operation

variable [Pacing σ]

theorem perform_of_tooLarge {op : Operation} {frame : Frame} (hframe : op.frame? = some frame)
    (h : maxPayload < frame.payload.length) (box : Outbox σ) :
    op.perform box = (.error (.tooLarge frame.payload.length), box) := by
  cases op with
  | request r => cases hframe; exact box.putRequest_of_tooLarge r h
  | append a => cases hframe; exact box.putAppend_of_tooLarge a h
  | flush | ack => cases hframe

theorem fits_of_ok (op : Operation) {frame : Frame} (hframe : op.frame? = some frame) {box : Outbox σ}
    (h : (op.perform box).1 = .ok ()) : frame.fits = true := by
  rw [Frame.fits, decide_eq_true_eq]
  apply Nat.le_of_not_lt
  intro hlarge
  rw [perform_of_tooLarge hframe hlarge] at h
  cases h

theorem perform_ne_tooLarge {op : Operation} (h : ∀ frame, op.frame? = some frame → frame.fits = true)
    (box : Outbox σ) (size : Nat) : (op.perform box).1 ≠ .error (.tooLarge size) := by
  cases op with
  | request r =>
      obtain ⟨after, hwrite⟩ | ⟨fault, after, hwrite⟩ :=
        r.frame.write_cases box.out (of_decide_eq_true (h r.frame rfl))
      · simp only [perform, putRequest, hwrite]
        exact flush_ne_tooLarge _ size
      · simp [perform, putRequest, hwrite]
  | append a =>
      obtain ⟨after, hwrite⟩ | ⟨fault, after, hwrite⟩ :=
        a.frame.write_cases box.out (of_decide_eq_true (h a.frame rfl))
      · simp only [perform, putAppend, hwrite]
        split
        · exact flush_ne_tooLarge _ size
        · simp
      · simp [perform, putAppend, hwrite]
  | flush => exact box.flush_ne_tooLarge size
  | ack => simp [perform]

theorem refused_iff (op : Operation) (box : Outbox σ) (size : Nat) :
    (op.perform box).1 = .error (.tooLarge size) ↔
      ∃ frame, op.frame? = some frame ∧ maxPayload < frame.payload.length ∧
        frame.payload.length = size := by
  constructor
  · intro hrefused
    by_contra hno
    refine perform_ne_tooLarge ?_ box size hrefused
    intro frame hframe
    by_contra hfits
    have hlarge := Frame.fits_eq_false_iff.mp (eq_false_of_ne_true hfits)
    rw [perform_of_tooLarge hframe hlarge] at hrefused
    cases hrefused
    exact hno ⟨frame, hframe, hlarge, rfl⟩
  · rintro ⟨frame, hframe, hlarge, rfl⟩
    rw [perform_of_tooLarge hframe hlarge]

theorem grows_perform (op : Operation) (box : Outbox σ) :
    Grows box.out.content op.bytes (op.perform box).2.out.content ((op.perform box).1 = .ok ()) := by
  by_cases hlarge : ∃ frame, op.frame? = some frame ∧ maxPayload < frame.payload.length
  · obtain ⟨frame, hframe, h⟩ := hlarge
    rw [perform_of_tooLarge hframe h]
    exact Grows.nothing _ _ (by simp)
  · have hfits : ∀ frame, op.frame? = some frame → frame.fits = true := by
      intro frame hframe
      by_contra hfits
      exact hlarge ⟨frame, hframe, Frame.fits_eq_false_iff.mp (eq_false_of_ne_true hfits)⟩
    cases op with
    | request r =>
        have hbytes : (request r).bytes = r.frame.bytes := bytes_of_frame rfl (hfits r.frame rfl)
        simp only [hbytes, perform]
        exact box.grows_putRequest r
    | append a =>
        have hbytes : (append a).bytes = a.frame.bytes := bytes_of_frame rfl (hfits a.frame rfl)
        simp only [hbytes, perform]
        exact box.grows_putAppend a
    | flush => simpa [perform, bytes, frame?, content_flush] using Grows.all box.out.content [] _
    | ack n => simpa [perform, bytes, frame?, noteAck] using Grows.all box.out.content [] True

end Operation

end SegmentClient.Outbox
