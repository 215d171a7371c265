import SegmentClient.Proofs.Pacing.Numbering

namespace SegmentClient.Pacing

def sizes (notes : List Note) : List Nat :=
  notes.filterMap fun
    | .append _ size => some size
    | .ack _ => none

namespace Note

def unsized : Note → Note
  | append number _ => append number 0
  | ack number => ack number

def answer? {σ : Type} [Pacing σ] (pacer : σ) : Note → Option Int64
  | append _ _ => none
  | ack number => some (noteAck pacer number).2

end Note

def answers {σ : Type} [Pacing σ] : List Note → σ → List Int64
  | [], _ => []
  | note :: notes, pacer => (note.answer? pacer).toList ++ answers notes (note.tell pacer)

theorem hear_cons {σ : Type} [Pacing σ] (note : Note) (notes : List Note) (pacer : σ) :
    hear (note :: notes) pacer = hear notes (note.tell pacer) := rfl

theorem eventSize_hear (notes : List Note) (pacer : Adaptive) :
    (hear notes pacer).eventSize =
      (sizes notes).foldl (fun average size => average.add (Float.ofNat size)) pacer.eventSize := by
  induction notes generalizing pacer with
  | nil => rfl
  | cons note notes ih =>
      rw [hear_cons, ih]
      cases note with
      | append number size => rfl
      | ack number => rfl

/-- The same numbers, and the same average of what awaits acknowledgement. -/
structure InStep (first second : Adaptive) : Prop where
  lastAppend : first.lastAppend = second.lastAppend
  lastAck : first.lastAck = second.lastAck
  outstanding : first.outstanding = second.outstanding

namespace InStep

variable {first second : Adaptive}

theorem append (h : InStep first second) (number : Int64) (firstSize secondSize : Nat) :
    InStep (noteAppend first number firstSize) (noteAppend second number secondSize) where
  lastAppend := rfl
  lastAck := h.lastAck
  outstanding := by
    change first.outstanding.add (number - first.lastAck).toFloat = _
    rw [h.outstanding, h.lastAck]
    rfl

theorem ack (h : InStep first second) (number : Int64) :
    (noteAck first number).2 = (noteAck second number).2 ∧
      InStep (noteAck first number).1 (noteAck second number).1 := by
  have hanswer : first.lastAppend - number = second.lastAppend - number := by rw [h.lastAppend]
  refine ⟨hanswer, h.lastAppend, rfl, ?_⟩
  change first.outstanding.add (first.lastAppend - number).toFloat = _
  rw [h.outstanding, hanswer]
  rfl

theorem tell (h : InStep first second) {note other : Note} (hnotes : note.unsized = other.unsized) :
    note.answer? first = other.answer? second ∧ InStep (note.tell first) (other.tell second) := by
  cases note with
  | append number size =>
      cases other with
      | append number' size' =>
          cases hnotes
          exact ⟨rfl, h.append number size size'⟩
      | ack number' => cases hnotes
  | ack number =>
      cases other with
      | append number' size' => cases hnotes
      | ack number' =>
          cases hnotes
          obtain ⟨hanswer, hstep⟩ := h.ack number
          exact ⟨congrArg some hanswer, hstep⟩

theorem hear {notes others : List Note} (h : InStep first second)
    (hnotes : notes.map Note.unsized = others.map Note.unsized) :
    answers notes first = answers others second ∧
      InStep (Pacing.hear notes first) (Pacing.hear others second) := by
  induction notes generalizing others first second with
  | nil =>
      obtain rfl := List.map_eq_nil_iff.mp hnotes.symm
      exact ⟨rfl, h⟩
  | cons note notes ih =>
      cases others with
      | nil => cases hnotes
      | cons other others =>
          rw [List.map_cons, List.map_cons] at hnotes
          obtain ⟨hhead, htail⟩ := List.cons.inj hnotes
          obtain ⟨hanswer, hstep⟩ := h.tell hhead
          obtain ⟨hanswers, hrest⟩ := ih hstep htail
          exact ⟨by rw [answers, answers, hanswer, hanswers], hrest⟩

end InStep

/-- After two runs with the same sizes of appends, the averages of sizes are the same, whatever the numbers
were and wherever acknowledgements came in between. After two runs with the same numbers in the same order,
so is all else, the answers included, whatever the sizes were. -/
theorem separate_hear (first second : List Note) (pacer : Adaptive) :
    (sizes first = sizes second → (hear first pacer).eventSize = (hear second pacer).eventSize) ∧
    (first.map Note.unsized = second.map Note.unsized →
      answers first pacer = answers second pacer ∧ InStep (hear first pacer) (hear second pacer)) := by
  constructor
  · intro hsizes
    -- These runs need not keep step with one another; the sizes are all that each leaves behind.
    rw [eventSize_hear, eventSize_hear, hsizes]
  · intro hnotes
    exact InStep.hear ⟨rfl, rfl, rfl⟩ hnotes

theorem separate_hear_shuffled :
    let fresh : Adaptive := {}
    let run : List Note := [.append 1 100, .ack 1, .append 2 7, .append 3 0, .ack 3, .ack 2]
    let unanswered : List Note := [.append 9 100, .append (-4) 7, .append 9 0]
    let resized : List Note := [.append 1 0, .ack 1, .append 2 8000000, .append 3 1, .ack 3, .ack 2]
    (sizes run = sizes unanswered ∧ (hear run fresh).eventSize = (hear unanswered fresh).eventSize) ∧
    run.map Note.unsized = resized.map Note.unsized ∧ answers run fresh = answers resized fresh ∧
      InStep (hear run fresh) (hear resized fresh) := by
  intro fresh run unanswered resized
  have hsizes : sizes run = sizes unanswered := rfl
  have hnumbers : run.map Note.unsized = resized.map Note.unsized := rfl
  exact ⟨⟨hsizes, (separate_hear run unanswered fresh).1 hsizes⟩, hnumbers,
    (separate_hear run resized fresh).2 hnumbers⟩

end SegmentClient.Pacing
