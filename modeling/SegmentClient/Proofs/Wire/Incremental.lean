import SegmentClient.Wire.Layout

namespace SegmentClient.Wire

abbrev Reader (α : Type) := List UInt8 → Except PayloadFault (α × List UInt8)

variable {α β : Type}

/-- What a reader says of the first bytes it says of all that begin with them: a value and a fault
are final, and one that runs short is short by as many bytes fewer. -/
structure Incremental (read : Reader α) : Prop where
  ok : ∀ {bytes rest : List UInt8} {value : α}, read bytes = .ok (value, rest) →
    ∀ more, read (bytes ++ more) = .ok (value, rest ++ more)
  final : ∀ {bytes : List UInt8} {fault : PayloadFault}, read bytes = .error fault →
    (∀ missing, fault ≠ .tooShort missing) → ∀ more, read (bytes ++ more) = .error fault
  short : ∀ {bytes : List UInt8} {missing : Nat}, read bytes = .error (.tooShort missing) →
    0 < missing ∧ ∀ more, more.length < missing →
      read (bytes ++ more) = .error (.tooShort (missing - more.length))

namespace Incremental

theorem done (value : α) : Incremental fun rest => .ok (value, rest) where
  ok h more := by
    cases h
    rfl
  final h := nomatch h
  short h := nomatch h

theorem fail {fault : PayloadFault} (hfinal : ∀ missing, fault ≠ .tooShort missing) :
    Incremental fun _ => (.error fault : Except PayloadFault (α × List UInt8)) where
  ok h := nomatch h
  final h _ _ := h
  short h := absurd (Except.error.inj h) (hfinal _)

theorem andThen {first : Reader α} {read : Reader β} (hfirst : Incremental first) (next : α → Reader β)
    (hnext : ∀ value, Incremental (next value))
    (herror : ∀ {bytes fault}, first bytes = .error fault → read bytes = .error fault)
    (hok : ∀ {bytes value rest}, first bytes = .ok (value, rest) → read bytes = next value rest) :
    Incremental read where
  ok {bytes rest value} h more := by
    cases hread : first bytes with
    | error fault =>
        rw [herror hread] at h
        cases h
    | ok part =>
        rw [hok hread] at h
        rw [hok (hfirst.ok hread more)]
        exact (hnext part.1).ok h more
  final {bytes fault} h hfinal more := by
    cases hread : first bytes with
    | error fault =>
        rw [herror hread] at h
        cases h
        exact herror (hfirst.final hread hfinal more)
    | ok part =>
        rw [hok hread] at h
        rw [hok (hfirst.ok hread more)]
        exact (hnext part.1).final h hfinal more
  short {bytes missing} h := by
    cases hread : first bytes with
    | error fault =>
        rw [herror hread] at h
        cases h
        obtain ⟨hpos, hmore⟩ := hfirst.short hread
        exact ⟨hpos, fun more hlt => herror (hmore more hlt)⟩
    | ok part =>
        rw [hok hread] at h
        obtain ⟨hpos, hmore⟩ := (hnext part.1).short h
        refine ⟨hpos, fun more hlt => ?_⟩
        rw [hok (hfirst.ok hread more)]
        exact hmore more hlt

theorem map {first : Reader α} {read : Reader β} (hfirst : Incremental first) (make : α → β)
    (herror : ∀ {bytes fault}, first bytes = .error fault → read bytes = .error fault)
    (hok : ∀ {bytes value rest}, first bytes = .ok (value, rest) → read bytes = .ok (make value, rest)) :
    Incremental read :=
  hfirst.andThen (fun value rest => .ok (make value, rest)) (fun value => done (make value)) herror hok

end Incremental

theorem split_of_lt {count : Nat} {bytes : List UInt8} (h : bytes.length < count) :
    split count bytes = .error (.tooShort (count - bytes.length)) := by
  have htake : bytes.take count = bytes := List.take_of_length_le (Nat.le_of_lt h)
  simp only [split, htake, if_neg (Nat.ne_of_lt h)]

theorem tooShort_of_split {count : Nat} {bytes : List UInt8} {fault : PayloadFault}
    (h : split count bytes = .error fault) :
    bytes.length < count ∧ fault = .tooShort (count - bytes.length) := by
  obtain hlt | hle := Nat.lt_or_ge bytes.length count
  · rw [split_of_lt hlt] at h
    exact ⟨hlt, (Except.error.inj h).symm⟩
  · simp only [split, if_pos (List.length_take_of_le hle), reduceCtorEq] at h

theorem incremental_split (count : Nat) : Incremental (split count) where
  ok {bytes rest front} h more := by
    obtain ⟨rfl, rfl⟩ := append_of_split h
    rw [List.append_assoc]
    exact split_append front (rest ++ more)
  final h hfinal := absurd (tooShort_of_split h).2 (hfinal _)
  short {bytes missing} h := by
    obtain ⟨hlt, hmissing⟩ := tooShort_of_split h
    cases hmissing
    refine ⟨Nat.sub_pos_of_lt hlt, fun more hmore => ?_⟩
    rw [split_of_lt (by rw [List.length_append]; omega), List.length_append, Nat.sub_add_eq]

theorem incremental_word (width : Nat) : Incremental (word width) :=
  (incremental_split width).map BigEndian.decode (fun h => by rw [word, h]) (fun h => by rw [word, h])

def allowed (length : Nat) : Reader (List UInt8) := fun rest =>
  if maxRoom < length then .error .oversized else split length rest

theorem incremental_allowed (length : Nat) : Incremental (allowed length) := by
  unfold allowed
  split
  · exact .fail (by simp)
  · exact incremental_split length

theorem incremental_counted : Incremental counted :=
  (incremental_word 8).andThen allowed incremental_allowed (fun h => by rw [counted, h])
    (fun h => by rw [counted, h, allowed])

def asText (body : List UInt8) : Reader Field.text.Value := fun rest =>
  match Utf8.decode body with
  | .error fault => .error (.badText fault)
  | .ok value => .ok (value, rest)

theorem incremental_asText (body : List UInt8) : Incremental (asText body) := by
  unfold asText
  split
  · exact .fail (by simp)
  · exact .done _

theorem Field.incremental_decode (field : Field) : Incremental field.decode := by
  cases field with
  | int32 =>
      exact (incremental_word 4).map (fun n => Int32.ofBitVec (BitVec.ofNat 32 n))
        (fun h => by simp only [decode, h]) (fun h => by simp only [decode, h])
  | int64 =>
      exact (incremental_word 8).map (fun n => Int64.ofBitVec (BitVec.ofNat 64 n))
        (fun h => by simp only [decode, h]) (fun h => by simp only [decode, h])
  | writerId =>
      exact (incremental_word 16).map (fun n => BitVec.ofNat 128 n)
        (fun h => by simp only [decode, h]) (fun h => by simp only [decode, h])
  | text =>
      refine incremental_counted.andThen asText incremental_asText (fun h => by simp only [decode, h]) ?_
      intro bytes body rest h
      cases htext : Utf8.decode body <;> simp only [decode, asText, h, htext]
  | blob => exact incremental_counted

def Layout.decodeBehind {α : Type} (layout : Layout) (value : α) : Reader (α × layout.Values) := fun rest =>
  match layout.decode rest with
  | .error fault => .error fault
  | .ok (values, rest) => .ok ((value, values), rest)

theorem Layout.incremental_decode (layout : Layout) : Incremental layout.decode := by
  induction layout with
  | nil => exact .done ()
  | cons field layout ih =>
      have hbehind : ∀ value : field.Value, Incremental (decodeBehind layout value) := fun value =>
        ih.map (fun values => (value, values)) (fun h => by simp only [decodeBehind, h])
          (fun h => by simp only [decodeBehind, h])
      refine field.incremental_decode.andThen (decodeBehind layout) hbehind
        (fun h => by simp only [decode, h]) ?_
      intro bytes value rest h
      cases hrest : decode layout rest <;> simp only [decode, decodeBehind, h, hrest]

end SegmentClient.Wire
