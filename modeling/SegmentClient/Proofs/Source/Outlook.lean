import SegmentClient.Stream.Source

namespace SegmentClient.Source

/-- The bytes in front of the first fault that is not an interruption. -/
def ahead : List Item → List UInt8
  | [] => []
  | .chunk bytes :: items => bytes ++ ahead items
  | .stop :: items => ahead items
  | .fault kind :: items => if kind = .interrupted then ahead items else []

/-- That fault; a source without one ends. -/
def lastFault : List Item → StreamFault
  | [] => .endOfSource
  | .chunk _ :: items => lastFault items
  | .stop :: items => lastFault items
  | .fault kind :: items => if kind = .interrupted then lastFault items else .ofKind kind

theorem lastFault_of_interrupted {items : List Item}
    (h : ∀ kind, .fault kind ∈ items → kind = .interrupted) : lastFault items = .endOfSource := by
  induction items with
  | nil => rfl
  | cons item items ih =>
      have hrest := ih fun kind hkind => h kind (List.mem_cons_of_mem _ hkind)
      cases item with
      | chunk | stop => exact hrest
      | fault kind =>
          rw [lastFault, if_pos (h kind (List.mem_cons_self ..))]
          exact hrest

structure Outlook where
  bytes : List UInt8
  fault : StreamFault
  consumed : Nat

def outlook (source : Source) : Outlook := ⟨ahead source.items, lastFault source.items, source.consumed⟩

def Outlook.skip (count : Nat) (o : Outlook) : Outlook := ⟨o.bytes.drop count, o.fault, o.consumed + count⟩

theorem Outlook.skip_skip (first second : Nat) (o : Outlook) :
    (o.skip first).skip second = o.skip (first + second) := by
  simp [Outlook.skip, Nat.add_assoc]

theorem length_take_toList {buffer : Array UInt8} {position : Nat} (h : position ≤ buffer.size) :
    (buffer.toList.take position).length = position :=
  List.length_take_of_le (by rwa [Array.length_toList])

theorem toList_overwrite (bytes : List UInt8) {buffer : Array UInt8} {position : Nat}
    (h : position + bytes.length ≤ buffer.size) :
    (overwrite buffer position bytes).toList =
      buffer.toList.take position ++ bytes ++ buffer.toList.drop (position + bytes.length) := by
  induction bytes generalizing buffer position with
  | nil => rw [overwrite, List.append_nil, List.length_nil, Nat.add_zero, List.take_append_drop]
  | cons byte bytes ih =>
      rw [List.length_cons] at h
      have hset : buffer.toList.set position byte =
          buffer.toList.take position ++ [byte] ++ buffer.toList.drop (position + 1) := by
        rw [List.set_eq_take_append_cons_drop, if_pos (by rw [Array.length_toList]; omega), List.append_assoc,
          List.singleton_append]
      have hlength : (buffer.toList.take position ++ [byte]).length = position + 1 := by
        rw [List.length_append, length_take_toList (by omega), List.length_singleton]
      rw [overwrite, ih (by rw [Array.size_setIfInBounds]; omega), Array.toList_setIfInBounds,
        List.drop_set_of_lt (by omega), hset, List.take_left' hlength, List.append_assoc _ [byte],
        List.singleton_append, List.length_cons, Nat.add_assoc, Nat.add_comm 1]

theorem take_overwrite {bytes : List UInt8} {buffer : Array UInt8} {position : Nat}
    (h : position + bytes.length ≤ buffer.size) :
    (overwrite buffer position bytes).toList.take (position + bytes.length) =
      buffer.toList.take position ++ bytes := by
  rw [toList_overwrite bytes h]
  exact List.take_left' (by rw [List.length_append, length_take_toList (by omega)])

theorem drop_overwrite {bytes : List UInt8} {buffer : Array UInt8} {position : Nat}
    (h : position + bytes.length ≤ buffer.size) :
    (overwrite buffer position bytes).toList.drop (position + bytes.length) =
      buffer.toList.drop (position + bytes.length) := by
  rw [toList_overwrite bytes h]
  exact List.drop_left' (by rw [List.length_append, length_take_toList (by omega)])

theorem fetch_of_le (items : List Item) (due : Nat) (buffer : Array UInt8) (stops : Nat)
    (h : due ≤ (ahead items).length) (hroom : due ≤ buffer.size) :
    (fetch items due buffer stops).fault? = none ∧
      (fetch items due buffer stops).buffer.toList =
        buffer.toList.take (buffer.size - due) ++ (ahead items).take due ∧
      ahead (fetch items due buffer stops).items = (ahead items).drop due ∧
      lastFault (fetch items due buffer stops).items = lastFault items := by
  fun_induction fetch items due buffer stops with
  | case1 items buffer =>
      refine ⟨rfl, ?_, rfl, rfl⟩
      rw [Nat.sub_zero, List.take_zero, List.append_nil, ← Array.length_toList, List.take_length]
  | case2 => simp [ahead] at h
  | case3 items due buffer stops ih => exact ih h hroom
  | case4 items due buffer stops ih => simpa [ahead, lastFault] using ih (by simpa [ahead] using h) hroom
  | case5 kind items due buffer stops hkind => simp [ahead, hkind] at h
  | case6 bytes items due buffer stops front position hdrop ih =>
      have hshort : bytes.length ≤ due + 1 := List.drop_eq_nil_iff.mp hdrop
      have hfront : front = bytes := List.take_of_length_le hshort
      have hend : buffer.size - (due + 1 - bytes.length) = position + bytes.length := by omega
      rw [hfront] at ih ⊢
      simp only [ahead, List.length_append] at h
      rw [size_overwrite, hend, take_overwrite (by omega)] at ih
      obtain ⟨hfault, hbuffer, hahead, hlast⟩ := ih (by omega) (by omega)
      refine ⟨hfault, ?_, ?_, hlast⟩
      · rw [hbuffer, ahead, List.take_append, List.take_of_length_le hshort, List.append_assoc]
      · rw [hahead, ahead, List.drop_append, hdrop, List.nil_append]
  | case7 bytes items due buffer stops front position hne =>
      have hlong : due + 1 < bytes.length := Nat.lt_of_not_le fun hle => hne (List.drop_eq_nil_of_le hle)
      have hlength : front.length = due + 1 := List.length_take_of_le (Nat.le_of_lt hlong)
      have hend : position + front.length = buffer.size := by omega
      refine ⟨rfl, ?_, ?_, rfl⟩
      · rw [ahead, List.take_append_of_le_length (Nat.le_of_lt hlong),
          toList_overwrite front (Nat.le_of_eq hend), hend,
          List.drop_eq_nil_of_le (Nat.le_of_eq Array.length_toList), List.append_nil]
      · rw [ahead, ahead, List.drop_append_of_le_length (Nat.le_of_lt hlong)]

theorem fetch_of_lt (items : List Item) (due : Nat) (buffer : Array UInt8) (stops : Nat)
    (h : (ahead items).length < due) (hroom : due ≤ buffer.size) :
    (fetch items due buffer stops).fault? = some (lastFault items) ∧
      (fetch items due buffer stops).due = due - (ahead items).length ∧
      (fetch items due buffer stops).buffer.toList = buffer.toList.take (buffer.size - due) ++
        (ahead items ++ buffer.toList.drop (buffer.size - due + (ahead items).length)) := by
  fun_induction fetch items due buffer stops with
  | case1 => cases h
  | case2 => exact ⟨rfl, rfl, (List.take_append_drop ..).symm⟩
  | case3 items due buffer stops ih => exact ih h hroom
  | case4 items due buffer stops ih => simpa [ahead, lastFault] using ih (by simpa [ahead] using h) hroom
  | case5 kind items due buffer stops hkind => simp [ahead, lastFault, hkind]
  | case6 bytes items due buffer stops front position hdrop ih =>
      have hfront : front = bytes := List.take_of_length_le (List.drop_eq_nil_iff.mp hdrop)
      rw [hfront] at ih ⊢
      simp only [ahead, List.length_append] at h
      have hend : buffer.size - (due + 1 - bytes.length) = position + bytes.length := by omega
      rw [size_overwrite, hend, take_overwrite (by omega), ← List.drop_drop, drop_overwrite (by omega),
        List.drop_drop] at ih
      obtain ⟨hfault, hdue, hbuffer⟩ := ih (by omega) (by omega)
      refine ⟨hfault, ?_, ?_⟩
      · rw [hdue, ahead, List.length_append, Nat.sub_sub]
      · rw [hbuffer, ahead, List.length_append, Nat.add_assoc, List.append_assoc, List.append_assoc]
  | case7 bytes items due buffer stops front position hne =>
      refine absurd (List.drop_eq_nil_of_le ?_) hne
      simp only [ahead, List.length_append] at h
      omega

theorem fill_of_le (count : Nat) (source : Source) (h : count ≤ source.outlook.bytes.length) :
    ∃ rest, source.fill count = (.ok (source.outlook.bytes.take count), rest) ∧
      rest.outlook = source.outlook.skip count := by
  have hsize := size_resize count (source.buffer.take 0)
  obtain ⟨hfault, hbuffer, hahead, hlast⟩ :=
    fetch_of_le source.items count (resize count (source.buffer.take 0)) 0 h (Nat.le_of_eq hsize.symm)
  have hdue := due_of_fault?_eq_none _ _ _ _ hfault
  rw [hsize, Nat.sub_self, List.take_zero, List.nil_append] at hbuffer
  refine ⟨(source.fill count).2, Prod.ext ?_ rfl, ?_⟩
  · simp only [fill_eq, hfault, hbuffer]
    rfl
  · simp only [outlook, fill_eq, hahead, hlast, hdue, Outlook.skip, Nat.sub_zero]

theorem fill_of_lt (count : Nat) (source : Source) (h : source.outlook.bytes.length < count) :
    ∃ rest, source.fill count = (.error source.outlook.fault, rest) ∧
      rest.consumed = source.consumed + source.outlook.bytes.length := by
  have hsize := size_resize count (source.buffer.take 0)
  obtain ⟨hfault, hdue, _⟩ :=
    fetch_of_lt source.items count (resize count (source.buffer.take 0)) 0 h (Nat.le_of_eq hsize.symm)
  have hbytes : count - (count - (ahead source.items).length) = source.outlook.bytes.length :=
    Nat.sub_sub_self (Nat.le_of_lt h)
  refine ⟨(source.fill count).2, Prod.ext ?_ rfl, ?_⟩
  · simp only [fill_eq, hfault]
    rfl
  · simp only [fill_eq, hdue, hbytes]

end SegmentClient.Source
