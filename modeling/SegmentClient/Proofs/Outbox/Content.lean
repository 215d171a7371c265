import SegmentClient.Proofs.Outbox.Run

namespace SegmentClient.Outbox

variable {σ : Type}

/-- The sink did not fail: the operation succeeded, or its frame was refused. -/
def cameThrough : Except FrameFault Unit → Bool
  | .ok () | .error (.tooLarge _) => true
  | .error _ => false

theorem cameThrough_cases {result : Except FrameFault Unit} (h : cameThrough result = true) :
    result = .ok () ∨ ∃ size, result = .error (.tooLarge size) := by
  rcases result with fault | _
  · cases fault with
    | tooLarge size => exact Or.inr ⟨size, rfl⟩
    | _ => cases h
  · exact Or.inl rfl

namespace Operation

theorem bytes_of_refused {op : Operation} {frame : Frame} (h : op.frame? = some frame)
    (hlarge : maxPayload < frame.payload.length) : op.bytes = [] := by
  simp [bytes, h, Frame.fits, hlarge]

theorem flatMap_bytes (ops : List Operation) :
    ops.flatMap bytes = ((ops.filterMap frame?).filter Frame.fits).flatMap Frame.bytes := by
  induction ops with
  | nil => rfl
  | cons op ops ih =>
      rw [List.flatMap_cons, ih, bytes]
      rcases hframe : op.frame? with _ | frame
      · simp [hframe]
      · by_cases hfits : frame.fits = true <;> simp [hframe, hfits]

variable [Pacing σ]

theorem eq_of_refused {op : Operation} {box : Outbox σ} {size : Nat}
    (h : (op.perform box).1 = .error (.tooLarge size)) :
    (op.perform box).2 = box ∧ op.bytes = [] := by
  obtain ⟨frame, hframe, hlarge, _⟩ := (op.refused_iff box size).mp h
  exact ⟨by rw [perform_of_tooLarge hframe hlarge], bytes_of_refused hframe hlarge⟩

theorem content_perform (op : Operation) (box : Outbox σ) (h : cameThrough (op.perform box).1 = true) :
    (op.perform box).2.out.content = box.out.content ++ op.bytes := by
  rcases cameThrough_cases h with hok | ⟨size, hrefused⟩
  · obtain ⟨part, _, hcontent, hwhole⟩ := op.grows_perform box
    rw [hcontent, hwhole hok]
  · obtain ⟨hbox, hbytes⟩ := eq_of_refused hrefused
    rw [hbox, hbytes, List.append_nil]

theorem held_perform (op : Operation) (box : Outbox σ) (h : (op.perform box).1 = .ok ())
    (hsends : op = .flush ∨ ∃ r, op = .request r) : (op.perform box).2.out.held = #[] := by
  rcases hsends with rfl | ⟨r, rfl⟩
  · exact box.held_flush h
  · exact box.held_putRequest r h

end Operation

variable [Pacing σ]

theorem content_of_cameThrough (ops : List Operation) (box : Outbox σ)
    (h : ∀ result ∈ (run ops box).1, cameThrough result = true) :
    (run ops box).2.out.content = box.out.content ++ ops.flatMap Operation.bytes := by
  induction ops generalizing box with
  | nil => exact (List.append_nil _).symm
  | cons op ops ih =>
      have hop := op.content_perform box (h _ (by simp [run]))
      have hops := ih (op.perform box).2 (fun result hresult => h result (by simp [run, hresult]))
      rw [List.flatMap_cons, ← List.append_assoc, ← hop, ← hops]
      rfl

/-- While no operation has failed by its sink, the content is that of the frames within the limit;
one more operation, whatever comes of it, adds a front part of its frame. A frame over the limit is
refused and leaves the outbox as it was. A request or a flush that succeeds holds nothing back, and
after a flush the sink has what it would have without a buffer. -/
theorem content_run (box : Outbox σ) (before : List Operation) (op : Operation)
    (h : ∀ result ∈ (run before box).1, cameThrough result = true) :
    let here := (run before box).2
    let result := (op.perform here).1
    let after := (op.perform here).2
    here.out.content = box.out.content ++ before.flatMap Operation.bytes ∧
    (∃ part, part <+: op.bytes ∧ after.out.content = here.out.content ++ part ∧
      (result = .ok () → part = op.bytes)) ∧
    (∀ size, result = .error (.tooLarge size) ↔
      ∃ frame, op.frame? = some frame ∧ maxPayload < frame.payload.length ∧ frame.payload.length = size) ∧
    ((∃ size, result = .error (.tooLarge size)) → after = here) ∧
    (result = .ok () → (op = .flush ∨ ∃ request, op = .request request) → after.out.held = #[]) ∧
    (result = .ok () → op = .flush → after.out.sink.taken =
      box.out.content ++ (Frame.writeEach (before.filterMap Operation.frame?) ({} : Sink)).2.taken) := by
  intro here result after
  have hhere : here.out.content = box.out.content ++ before.flatMap Operation.bytes :=
    content_of_cameThrough before box h
  refine ⟨hhere, op.grows_perform here, op.refused_iff here, ?_, op.held_perform here, ?_⟩
  · rintro ⟨size, hrefused⟩
    exact (Operation.eq_of_refused hrefused).1
  · intro hok hflush
    have hheld : after.out.held = #[] := op.held_perform here hok (Or.inl hflush)
    have hafter : after.out.content = here.out.content ++ op.bytes :=
      op.content_perform here (congrArg cameThrough hok)
    have hbytes : op.bytes = [] := by rw [hflush]; rfl
    have htaken : (Frame.writeEach (before.filterMap Operation.frame?) ({} : Sink)).2.taken =
        before.flatMap Operation.bytes := by
      rw [(Frame.writeEach_to_plain _ {} rfl).2, Operation.flatMap_bytes]
      rfl
    rw [BufferedSink.content, hheld, hhere, hbytes] at hafter
    rw [htaken]
    simpa using hafter

theorem content_run_pieces :
    let box : Outbox Pacing.Schedule :=
      { out := { sink := { turns := [.take 3, .fail .interrupted, .take 49, .fail .interrupted] } }
        pacer := { sizes := [30, 90] } }
    let before := [.append (Append.single 1 0 []), .ack 0, .append (Append.single 1 1 [7])]
    let here := (run before box).2
    (∀ result ∈ (run before box).1, cameThrough result = true) ∧
    here.out.content = before.flatMap Operation.bytes ∧
    here.flush.2.out.held = #[] ∧
    here.flush.2.out.sink.taken =
      (Frame.writeEach (before.filterMap Operation.frame?) ({} : Sink)).2.taken :=
  ⟨by decide, (content_run _ _ .flush (by decide)).1,
    (content_run _ _ .flush (by decide)).2.2.2.2.1 rfl (Or.inl rfl),
    (content_run _ _ .flush (by decide)).2.2.2.2.2 rfl rfl⟩

end SegmentClient.Outbox
