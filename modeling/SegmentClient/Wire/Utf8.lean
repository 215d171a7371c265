namespace SegmentClient.Wire.Utf8

/-- The first place where bytes are not UTF-8: how many bytes before it are whole characters, and
how many bytes belong to the broken character (`none` when the bytes end inside it). -/
structure Fault where
  validUpTo : Nat
  errorLength : Option Nat
deriving DecidableEq, Repr

structure Shape where
  following : Nat
  lowest : UInt8
  highest : UInt8

/-- The shapes that Unicode allows: no overlong forms, no surrogates, nothing past U+10FFFF. -/
def shape? (lead : UInt8) : Option Shape :=
  if lead ≤ 0x7F then some ⟨0, 0x80, 0xBF⟩
  else if lead < 0xC2 then none
  else if lead ≤ 0xDF then some ⟨1, 0x80, 0xBF⟩
  else if lead = 0xE0 then some ⟨2, 0xA0, 0xBF⟩
  else if lead = 0xED then some ⟨2, 0x80, 0x9F⟩
  else if lead ≤ 0xEF then some ⟨2, 0x80, 0xBF⟩
  else if lead = 0xF0 then some ⟨3, 0x90, 0xBF⟩
  else if lead ≤ 0xF3 then some ⟨3, 0x80, 0xBF⟩
  else if lead = 0xF4 then some ⟨3, 0x80, 0x8F⟩
  else none

/-- Where a scan stands: `start` bytes are whole characters, `seen` bytes of the next one have
been read, and `due` are still to come. -/
structure Scan where
  start : Nat := 0
  seen : Nat := 0
  due : Shape := ⟨0, 0x80, 0xBF⟩

def firstFault : Scan → List UInt8 → Option Fault
  | scan, [] => if scan.due.following = 0 then none else some ⟨scan.start, none⟩
  | scan, b :: rest =>
    match scan.due with
    | ⟨0, _, _⟩ =>
      match shape? b with
      | none => some ⟨scan.start, some 1⟩
      | some ⟨0, _, _⟩ => firstFault { start := scan.start + 1 } rest
      | some due => firstFault ⟨scan.start, 1, due⟩ rest
    | ⟨following + 1, lowest, highest⟩ =>
      if lowest ≤ b ∧ b ≤ highest then
        if following = 0 then firstFault { start := scan.start + scan.seen + 1 } rest
        else firstFault ⟨scan.start, scan.seen + 1, ⟨following, 0x80, 0xBF⟩⟩ rest
      else some ⟨scan.start, some scan.seen⟩

def encode (text : String) : List UInt8 := text.toUTF8.data.toList

def decode (bytes : List UInt8) : Except Fault String :=
  match String.fromUTF8? ⟨bytes.toArray⟩ with
  | some text => .ok text
  | none => .error ((firstFault {} bytes).getD ⟨bytes.length, none⟩)

theorem length_encode (text : String) : (encode text).length = text.utf8ByteSize := by
  simp [encode]

theorem decode_encode (text : String) : decode (encode text) = .ok text := by
  have hfound : String.fromUTF8? ⟨(encode text).toArray⟩ = some text := by
    simpa [encode, String.fromUTF8?] using ⟨text.isValidUTF8, rfl⟩
  simp [decode, hfound]

theorem encode_of_decode {bytes : List UInt8} {text : String} (h : decode bytes = .ok text) :
    encode text = bytes := by
  unfold decode at h
  split at h
  · rename_i found hfound
    cases h
    unfold String.fromUTF8? at hfound
    split at hfound
    · cases hfound
      simp [encode, String.fromUTF8]
    · cases hfound
  · cases h

end SegmentClient.Wire.Utf8
