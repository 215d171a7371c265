import SegmentClient.Wire.Layout

namespace SegmentClient.Wire

theorem split_ne_oversized (count : Nat) (bytes : List UInt8) : split count bytes ≠ .error .oversized := by
  rw [split]
  split <;> simp

theorem word_ne_oversized (width : Nat) (bytes : List UInt8) : word width bytes ≠ .error .oversized := by
  intro h
  rw [word] at h
  split at h
  · rename_i hsplit
    cases h
    exact split_ne_oversized width bytes hsplit
  · cases h

theorem counted_eq_oversized_iff (bytes : List UInt8) :
    counted bytes = .error .oversized ↔
      ∃ length rest, maxRoom < length ∧ length < BigEndian.span 8 ∧
        bytes = BigEndian.encode 8 length ++ rest := by
  constructor
  · intro h
    rw [counted] at h
    rcases hword : word 8 bytes with fault | ⟨length, rest⟩
    · rw [hword] at h
      cases h
      exact absurd hword (word_ne_oversized 8 bytes)
    · simp only [hword] at h
      by_cases hlength : maxRoom < length
      · obtain ⟨hlt, hbytes⟩ := encode_of_word hword
        exact ⟨length, rest, hlength, hlt, hbytes.symm⟩
      · rw [if_neg hlength] at h
        exact absurd h (split_ne_oversized length rest)
  · rintro ⟨length, rest, hlength, hlt, rfl⟩
    rw [counted, word_encode 8 length hlt rest]
    exact if_pos hlength

def Field.isCounted : Field → Bool
  | .text | .blob => true
  | .int32 | .int64 | .writerId => false

theorem Field.decode_eq_oversized_iff (field : Field) (bytes : List UInt8) :
    field.decode bytes = .error .oversized ↔ field.isCounted = true ∧
      ∃ length rest, maxRoom < length ∧ length < BigEndian.span 8 ∧
        bytes = BigEndian.encode 8 length ++ rest := by
  rw [← counted_eq_oversized_iff]
  cases field with
  | int32 | int64 | writerId =>
      rw [decode]
      split
      · rename_i hword
        have hfault := fun h => word_ne_oversized _ bytes (hword.trans (congrArg Except.error h))
        simpa [isCounted] using hfault
      · simp [isCounted]
  | text =>
      rcases h : counted bytes with fault | ⟨body, rest⟩
      · simp [decode, isCounted, h]
      · rcases htext : Utf8.decode body with fault | value <;> simp [decode, h, htext]
  | blob => simp [decode, isCounted]

/-- Behind whole fields stands the length of a text or of data, and it is 2^63 or more. -/
inductive Layout.Overflows : Layout → List UInt8 → Prop
  | claim {field : Field} (layout : Layout) (length : Nat) (rest : List UInt8) :
      field.isCounted = true → maxRoom < length → length < BigEndian.span 8 →
        Layout.Overflows (field :: layout) (BigEndian.encode 8 length ++ rest)
  | behind {field : Field} (value : field.Value) {layout : Layout} {rest : List UInt8} :
      Layout.Overflows layout rest → Layout.Overflows (field :: layout) (field.encode value ++ rest)

namespace Layout

theorem overflows_of_decode {layout : Layout} {bytes : List UInt8}
    (h : layout.decode bytes = .error .oversized) :
    layout.Overflows bytes := by
  induction layout generalizing bytes with
  | nil => cases h
  | cons field layout ih =>
      rw [decode] at h
      rcases hfield : field.decode bytes with fault | ⟨value, rest⟩
      · rw [hfield] at h
        cases h
        obtain ⟨hcounted, length, rest, hlength, hlt, rfl⟩ :=
          (field.decode_eq_oversized_iff bytes).mp hfield
        exact Overflows.claim layout length rest hcounted hlength hlt
      · rw [← Field.encode_of_decode hfield]
        apply Overflows.behind value
        apply ih
        simp only [hfield] at h
        rcases hrest : decode layout rest with fault | _
        · simp only [hrest] at h
          rw [Except.error.inj h]
        · simp only [hrest, reduceCtorEq] at h

theorem decode_eq_oversized_iff (layout : Layout) (bytes : List UInt8) (hsize : bytes.length ≤ maxRoom) :
    layout.decode bytes = .error .oversized ↔ layout.Overflows bytes := by
  refine ⟨overflows_of_decode, ?_⟩
  intro h
  induction h with
  | @claim field layout length rest hcounted hlength hlt =>
      have hfield := (field.decode_eq_oversized_iff _).mpr ⟨hcounted, length, rest, hlength, hlt, rfl⟩
      rw [decode, hfield]
  | @behind field value layout rest _ ih =>
      rw [List.length_append] at hsize
      rw [decode, field.decode_encode value rest (field.inRange_of_length value (by omega))]
      simp only [ih (by omega)]

end Layout

end SegmentClient.Wire
