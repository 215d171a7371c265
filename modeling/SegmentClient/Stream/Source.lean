import SegmentClient.Stream.Fault

namespace SegmentClient

inductive Source.Item
  | chunk (bytes : List UInt8)
  | fault (kind : StreamFault.Kind)
  | stop
deriving DecidableEq, Repr

/-- A source that ends after its items. Fills go through `buffer`, which keeps what the last of them
left in it. -/
structure Source where
  items : List Source.Item
  consumed : Nat := 0
  stops : Nat := 0
  buffer : Array UInt8 := #[]
deriving DecidableEq, Repr

namespace Source

def resize (count : Nat) (buffer : Array UInt8) : Array UInt8 :=
  buffer.take count ++ Array.replicate (count - buffer.size) 0

def overwrite : (buffer : Array UInt8) → (position : Nat) → List UInt8 → Array UInt8
  | buffer, _, [] => buffer
  | buffer, position, byte :: bytes =>
    overwrite (buffer.setIfInBounds position byte) (position + 1) bytes

structure Fetch where
  buffer : Array UInt8
  due : Nat
  items : List Item
  stops : Nat
  fault? : Option StreamFault

/-- Reads into the end of a buffer until nothing of it is due. An interrupted read is repeated; any
other fault ends the fill, and the bytes already read stay taken. -/
def fetch : List Item → (due : Nat) → (buffer : Array UInt8) → (stops : Nat) → Fetch
  | items, 0, buffer, stops => ⟨buffer, 0, items, stops, none⟩
  | [], due + 1, buffer, stops => ⟨buffer, due + 1, [], stops, some .endOfSource⟩
  | .stop :: items, due + 1, buffer, stops => fetch items (due + 1) buffer (stops + 1)
  | .fault kind :: items, due + 1, buffer, stops =>
    if kind = .interrupted then fetch items (due + 1) buffer stops
    else ⟨buffer, due + 1, items, stops, some (.ofKind kind)⟩
  | .chunk bytes :: items, due + 1, buffer, stops =>
    let front := bytes.take (due + 1)
    let position := buffer.size - (due + 1)
    match bytes.drop (due + 1) with
    | [] => fetch items (due + 1 - front.length) (overwrite buffer position front) stops
    | rest => ⟨overwrite buffer position front, 0, .chunk rest :: items, stops, none⟩

/-- Clears the buffer, makes it `count` bytes long and reads until all of it is overwritten. -/
def fill (count : Nat) (source : Source) : Except StreamFault (List UInt8) × Source :=
  let room := resize count (source.buffer.take 0)
  let done := fetch source.items room.size room 0
  let consumed := source.consumed + (done.buffer.size - done.due)
  let source : Source := ⟨done.items, consumed, source.stops + done.stops, done.buffer⟩
  match done.fault? with
  | none => (.ok source.buffer.toList, source)
  | some fault => (.error fault, source)

def size : List Item → Nat
  | [] => 0
  | .chunk bytes :: items => bytes.length + size items
  | _ :: items => size items

@[simp] theorem size_resize (count : Nat) (buffer : Array UInt8) : (resize count buffer).size = count := by
  rw [resize, Array.size_append, Array.size_replicate, Array.take, Array.size_extract]
  omega

theorem size_overwrite (bytes : List UInt8) (buffer : Array UInt8) (position : Nat) :
    (overwrite buffer position bytes).size = buffer.size := by
  induction bytes generalizing buffer position with
  | nil => rfl
  | cons byte bytes ih => rw [overwrite, ih, Array.size_setIfInBounds]

theorem size_fetch (items : List Item) (due : Nat) (buffer : Array UInt8) (stops : Nat) :
    (fetch items due buffer stops).buffer.size = buffer.size := by
  fun_induction fetch items due buffer stops with
  | case1 | case2 | case5 => rfl
  | case3 items due buffer stops ih => exact ih
  | case4 items due buffer stops ih => exact ih
  | case6 bytes items due buffer stops front position hdrop ih => rw [ih, size_overwrite]
  | case7 => exact size_overwrite ..

theorem due_fetch (items : List Item) (due : Nat) (buffer : Array UInt8) (stops : Nat) :
    due + size (fetch items due buffer stops).items = (fetch items due buffer stops).due + size items := by
  fun_induction fetch items due buffer stops with
  | case1 | case2 | case5 => rfl
  | case3 items due buffer stops ih => exact ih
  | case4 items due buffer stops ih => exact ih
  | case6 bytes items due buffer stops front position hdrop ih =>
    have hle : bytes.length ≤ due + 1 := List.drop_eq_nil_iff.mp hdrop
    have hfront : front.length = bytes.length := congrArg List.length (List.take_of_length_le hle)
    rw [size]
    omega
  | case7 bytes items due buffer stops front position hne =>
    have hlong : due + 1 < bytes.length := Nat.lt_of_not_le fun hle => hne (List.drop_eq_nil_of_le hle)
    simp only [size, List.length_drop]
    omega

theorem due_of_fault?_eq_none (items : List Item) (due : Nat) (buffer : Array UInt8) (stops : Nat)
    (h : (fetch items due buffer stops).fault? = none) : (fetch items due buffer stops).due = 0 := by
  fun_induction fetch items due buffer stops with
  | case1 | case7 => rfl
  | case2 | case5 => cases h
  | case3 items due buffer stops ih => exact ih h
  | case4 items due buffer stops ih => exact ih h
  | case6 bytes items due buffer stops front position hdrop ih => exact ih h

theorem fill_eq (count : Nat) (source : Source) :
    source.fill count =
      let done := fetch source.items count (resize count (source.buffer.take 0)) 0
      (done.fault?.elim (.ok done.buffer.toList) .error,
        ⟨done.items, source.consumed + (count - done.due), source.stops + done.stops, done.buffer⟩) := by
  have hroom := size_resize count (source.buffer.take 0)
  have hbuffer := size_fetch source.items count (resize count (source.buffer.take 0)) 0
  simp only [fill, hroom]
  generalize fetch source.items count (resize count (source.buffer.take 0)) 0 = done at hbuffer ⊢
  rw [hbuffer, hroom]
  cases done.fault? <;> rfl

theorem fetch_of_fill {count : Nat} {source rest : Source} {bytes : List UInt8}
    (h : source.fill count = (.ok bytes, rest)) :
    ∃ done, fetch source.items count (resize count (source.buffer.take 0)) 0 = done ∧
      done.fault? = none ∧ bytes = done.buffer.toList ∧
      rest = ⟨done.items, source.consumed + count, source.stops + done.stops, done.buffer⟩ := by
  rw [fill_eq] at h
  refine ⟨_, rfl, ?_⟩
  have hdue := due_of_fault?_eq_none source.items count (resize count (source.buffer.take 0)) 0
  generalize fetch source.items count (resize count (source.buffer.take 0)) 0 = done at h hdue ⊢
  cases hfault : done.fault? with
  | none =>
      simp only [hfault, hdue hfault] at h
      cases h
      exact ⟨rfl, rfl, rfl⟩
  | some fault =>
      simp only [hfault] at h
      cases h

theorem fill_ok {count : Nat} {source rest : Source} {bytes : List UInt8}
    (h : fill count source = (.ok bytes, rest)) :
    bytes.length = count ∧ rest.consumed = source.consumed + count ∧
      size source.items = count + size rest.items := by
  obtain ⟨done, hfetch, hfault, rfl, rfl⟩ := fetch_of_fill h
  have hbuffer := size_fetch source.items count (resize count (source.buffer.take 0)) 0
  have hleft := due_fetch source.items count (resize count (source.buffer.take 0)) 0
  have hdue := due_of_fault?_eq_none source.items count (resize count (source.buffer.take 0)) 0
  rw [hfetch] at hbuffer hleft hdue
  rw [hdue hfault, Nat.zero_add] at hleft
  exact ⟨by rw [Array.length_toList, hbuffer, size_resize], rfl, hleft.symm⟩

end Source

end SegmentClient
