import SegmentClient.Wire.BigEndian
import SegmentClient.Wire.Utf8

namespace SegmentClient.Wire

/-- The most bytes that a reader asks memory for: 2^63 - 1. Up to there the memory is taken to be
granted; a machine that refuses it ends the whole program, which nothing here describes. -/
def maxRoom : Nat := 0x7FFFFFFFFFFFFFFF

/-- Why bytes do not hold the fields that a layout asks for. `oversized` is the one that no caller
can answer: a length of 2^63 or more, which is more than a buffer may hold on any machine. -/
inductive PayloadFault
  | tooShort (missing : Nat)
  | badText (fault : Utf8.Fault)
  | oversized
deriving DecidableEq, Repr

def Utf8.Fault.message (fault : Utf8.Fault) : String :=
  let length := match fault.errorLength with
    | none => "None"
    | some n => s!"Some({n})"
  s!"Utf8Error \x7b valid_up_to: {fault.validUpTo}, error_len: {length} \x7d"

def PayloadFault.message : PayloadFault → String
  | .tooShort missing => s!"UnexpectedEnd \x7b additional: {missing} \x7d"
  | .badText fault => s!"Utf8 \x7b inner: {fault.message} \x7d"
  | .oversized => "capacity overflow"

abbrev WriterId := BitVec 128

inductive Field
  | int32
  | int64
  | writerId
  | text
  | blob
deriving DecidableEq, Repr

abbrev Field.Value : Field → Type
  | .int32 => Int32
  | .int64 => Int64
  | .writerId => WriterId
  | .text => String
  | .blob => List UInt8

def split (count : Nat) (bytes : List UInt8) : Except PayloadFault (List UInt8 × List UInt8) :=
  let front := bytes.take count
  if front.length = count then .ok (front, bytes.drop count)
  else .error (.tooShort (count - front.length))

def word (width : Nat) (bytes : List UInt8) : Except PayloadFault (Nat × List UInt8) :=
  match split width bytes with
  | .error fault => .error fault
  | .ok (front, rest) => .ok (BigEndian.decode front, rest)

/-- Bytes behind their own length, and the rest. Room for them is made as soon as the length is read,
before it is known whether they are all there. -/
def counted (bytes : List UInt8) : Except PayloadFault (List UInt8 × List UInt8) :=
  match word 8 bytes with
  | .error fault => .error fault
  | .ok (length, rest) => if maxRoom < length then .error .oversized else split length rest

namespace Field

/-- Integers are written big-endian in two's complement; text and data follow their length. -/
def encode : (field : Field) → field.Value → List UInt8
  | .int32, n => BigEndian.encode 4 n.toBitVec.toNat
  | .int64, n => BigEndian.encode 8 n.toBitVec.toNat
  | .writerId, n => BigEndian.encode 16 n.toNat
  | .text, value =>
    let body := Utf8.encode value
    BigEndian.encode 8 body.length ++ body
  | .blob, body => BigEndian.encode 8 body.length ++ body

def decode : (field : Field) → List UInt8 → Except PayloadFault (field.Value × List UInt8)
  | .int32, bytes =>
    match word 4 bytes with
    | .error fault => .error fault
    | .ok (n, rest) => .ok (Int32.ofBitVec (BitVec.ofNat 32 n), rest)
  | .int64, bytes =>
    match word 8 bytes with
    | .error fault => .error fault
    | .ok (n, rest) => .ok (Int64.ofBitVec (BitVec.ofNat 64 n), rest)
  | .writerId, bytes =>
    match word 16 bytes with
    | .error fault => .error fault
    | .ok (n, rest) => .ok (BitVec.ofNat 128 n, rest)
  | .text, bytes =>
    match counted bytes with
    | .error fault => .error fault
    | .ok (body, rest) =>
      match Utf8.decode body with
      | .error fault => .error (.badText fault)
      | .ok value => .ok (value, rest)
  | .blob, bytes => counted bytes

def InRange : (field : Field) → field.Value → Prop
  | .int32, _ | .int64, _ | .writerId, _ => True
  | .text, value => (Utf8.encode value).length ≤ maxRoom
  | .blob, body => body.length ≤ maxRoom

end Field

abbrev Layout := List Field

abbrev Layout.Values : Layout → Type
  | [] => Unit
  | field :: layout => field.Value × Layout.Values layout

namespace Layout

def encode : (layout : Layout) → layout.Values → List UInt8
  | [], _ => []
  | field :: layout, (value, values) => field.encode value ++ encode layout values

def decode : (layout : Layout) → List UInt8 → Except PayloadFault (layout.Values × List UInt8)
  | [], bytes => .ok ((), bytes)
  | field :: layout, bytes =>
    match field.decode bytes with
    | .error fault => .error fault
    | .ok (value, rest) =>
      match decode layout rest with
      | .error fault => .error fault
      | .ok (values, rest) => .ok ((value, values), rest)

def InRange : (layout : Layout) → layout.Values → Prop
  | [], _ => True
  | field :: layout, (value, values) => field.InRange value ∧ InRange layout values

end Layout

theorem split_append (front rest : List UInt8) :
    split front.length (front ++ rest) = .ok (front, rest) := by
  simp [split]

theorem append_of_split {count : Nat} {bytes front rest : List UInt8}
    (h : split count bytes = .ok (front, rest)) : front.length = count ∧ front ++ rest = bytes := by
  simp only [split] at h
  split at h
  · rename_i hlength
    cases h
    exact ⟨hlength, List.take_append_drop count bytes⟩
  · cases h

theorem word_encode (width n : Nat) (hn : n < BigEndian.span width) (rest : List UInt8) :
    word width (BigEndian.encode width n ++ rest) = .ok (n, rest) := by
  have hsplit := split_append (BigEndian.encode width n) rest
  rw [BigEndian.length_encode] at hsplit
  simp [word, hsplit, BigEndian.decode_encode, Nat.mod_eq_of_lt hn]

theorem encode_of_word {width n : Nat} {bytes rest : List UInt8}
    (h : word width bytes = .ok (n, rest)) :
    n < BigEndian.span width ∧ BigEndian.encode width n ++ rest = bytes := by
  unfold word at h
  split at h
  · cases h
  · rename_i front _ hsplit
    cases h
    obtain ⟨hlength, happend⟩ := append_of_split hsplit
    subst hlength
    exact ⟨BigEndian.decode_lt front, by rw [BigEndian.encode_decode, happend]⟩

theorem counted_encode (body rest : List UInt8) (hbody : body.length ≤ maxRoom) :
    counted (BigEndian.encode 8 body.length ++ body ++ rest) = .ok (body, rest) := by
  have hword := word_encode 8 body.length (Nat.lt_of_le_of_lt hbody (by decide)) (body ++ rest)
  rw [← List.append_assoc] at hword
  simp only [counted, hword, if_neg (Nat.not_lt.2 hbody), split_append]

theorem encode_of_counted {bytes body rest : List UInt8} (h : counted bytes = .ok (body, rest)) :
    body.length ≤ maxRoom ∧ BigEndian.encode 8 body.length ++ body ++ rest = bytes := by
  unfold counted at h
  split at h
  · cases h
  · rename_i length tail hword
    split at h
    · cases h
    · rename_i hlength
      obtain ⟨hbody, happend⟩ := append_of_split h
      obtain ⟨_, hbytes⟩ := encode_of_word hword
      subst hbody
      exact ⟨Nat.not_lt.1 hlength, by rw [List.append_assoc, happend, hbytes]⟩

namespace Field

theorem inRange_of_length (field : Field) (value : field.Value)
    (h : (field.encode value).length ≤ maxRoom) : field.InRange value := by
  cases field with
  | int32 | int64 | writerId => trivial
  | text | blob =>
    simp only [encode, List.length_append] at h
    exact Nat.le_of_add_left_le h

theorem decode_encode (field : Field) (value : field.Value) (rest : List UInt8)
    (hvalue : field.InRange value) : field.decode (field.encode value ++ rest) = .ok (value, rest) := by
  cases field with
  | int32 =>
    have hword := word_encode 4 value.toBitVec.toNat value.toBitVec.isLt rest
    simp [encode, decode, hword]
  | int64 =>
    have hword := word_encode 8 value.toBitVec.toNat value.toBitVec.isLt rest
    simp [encode, decode, hword]
  | writerId =>
    have hword := word_encode 16 value.toNat value.isLt rest
    simp [encode, decode, hword]
  | text =>
    have hcounted := counted_encode (Utf8.encode value) rest hvalue
    simp only [encode, decode, hcounted, Utf8.decode_encode]
  | blob => exact counted_encode value rest hvalue

theorem encode_of_decode {field : Field} {bytes rest : List UInt8} {value : field.Value}
    (h : field.decode bytes = .ok (value, rest)) : field.encode value ++ rest = bytes := by
  cases field with
  | int32 =>
    simp only [decode] at h
    split at h
    · cases h
    · rename_i hword
      cases h
      obtain ⟨hn, hbytes⟩ := encode_of_word hword
      have hpow : BigEndian.span 4 = 2 ^ 32 := by decide
      rw [hpow] at hn
      rw [encode, Int32.toBitVec_ofBitVec, BitVec.toNat_ofNat, Nat.mod_eq_of_lt hn, hbytes]
  | int64 =>
    simp only [decode] at h
    split at h
    · cases h
    · rename_i hword
      cases h
      obtain ⟨hn, hbytes⟩ := encode_of_word hword
      have hpow : BigEndian.span 8 = 2 ^ 64 := by decide
      rw [hpow] at hn
      rw [encode, Int64.toBitVec_ofBitVec, BitVec.toNat_ofNat, Nat.mod_eq_of_lt hn, hbytes]
  | writerId =>
    simp only [decode] at h
    split at h
    · cases h
    · rename_i hword
      cases h
      obtain ⟨hn, hbytes⟩ := encode_of_word hword
      have hpow : BigEndian.span 16 = 2 ^ 128 := by decide
      rw [hpow] at hn
      rw [encode, BitVec.toNat_ofNat, Nat.mod_eq_of_lt hn, hbytes]
  | text =>
    simp only [decode] at h
    split at h
    · cases h
    · rename_i hcounted
      split at h
      · cases h
      · rename_i htext
        cases h
        obtain ⟨_, hbytes⟩ := encode_of_counted hcounted
        rw [encode, Utf8.encode_of_decode htext, hbytes]
  | blob => exact (encode_of_counted h).2

theorem inRange_of_decode {field : Field} {bytes rest : List UInt8} {value : field.Value}
    (h : field.decode bytes = .ok (value, rest)) : field.InRange value := by
  cases field with
  | int32 | int64 | writerId => trivial
  | text =>
    simp only [decode] at h
    split at h
    · cases h
    · rename_i hcounted
      split at h
      · cases h
      · rename_i htext
        cases h
        rw [InRange, Utf8.encode_of_decode htext]
        exact (encode_of_counted hcounted).1
  | blob => exact (encode_of_counted h).1

end Field

namespace Layout

theorem inRange_of_length (layout : Layout) (values : layout.Values)
    (h : (layout.encode values).length ≤ maxRoom) : layout.InRange values := by
  induction layout with
  | nil => trivial
  | cons field layout ih =>
    obtain ⟨value, values⟩ := values
    simp only [encode, List.length_append] at h
    exact ⟨field.inRange_of_length value (by omega), ih values (by omega)⟩

theorem decode_encode (layout : Layout) (values : layout.Values) (rest : List UInt8)
    (hvalues : layout.InRange values) :
    layout.decode (layout.encode values ++ rest) = .ok (values, rest) := by
  induction layout with
  | nil => rfl
  | cons field layout ih =>
    obtain ⟨value, values⟩ := values
    have hfield := field.decode_encode value (encode layout values ++ rest) hvalues.1
    simp only [encode, decode, List.append_assoc, hfield, ih values hvalues.2]

theorem encode_of_decode {layout : Layout} {bytes rest : List UInt8} {values : layout.Values}
    (h : layout.decode bytes = .ok (values, rest)) : layout.encode values ++ rest = bytes := by
  induction layout generalizing bytes with
  | nil =>
    simp only [decode] at h
    cases h
    rfl
  | cons field layout ih =>
    simp only [decode] at h
    split at h
    · cases h
    · rename_i hfield
      split at h
      · cases h
      · rename_i hlayout
        cases h
        rw [encode, List.append_assoc, ih hlayout, Field.encode_of_decode hfield]

theorem inRange_of_decode {layout : Layout} {bytes rest : List UInt8} {values : layout.Values}
    (h : layout.decode bytes = .ok (values, rest)) : layout.InRange values := by
  induction layout generalizing bytes with
  | nil => trivial
  | cons field layout ih =>
    simp only [decode] at h
    split at h
    · cases h
    · rename_i hfield
      split at h
      · cases h
      · rename_i hlayout
        cases h
        exact ⟨Field.inRange_of_decode hfield, ih hlayout⟩

end Layout

end SegmentClient.Wire
