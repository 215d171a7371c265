namespace SegmentClient.TrustStore.Base64

inductive Fault
  | invalidCharacter (byte : UInt8)
  | prematurePadding
  | invalidTrailingPadding
deriving DecidableEq, Repr

def Fault.message : Fault → String
  | invalidCharacter byte => s!"InvalidCharacter({byte})"
  | prematurePadding => "PrematurePadding"
  | invalidTrailingPadding => "InvalidTrailingPadding"

inductive Symbol
  | sextet (bits : Nat)
  | padding
  | blank
deriving DecidableEq, Repr

def symbol? (byte : UInt8) : Option Symbol :=
  let c := Char.ofNat byte.toNat
  if 'A' ≤ c ∧ c ≤ 'Z' then some (.sextet (c.toNat - 65))
  else if 'a' ≤ c ∧ c ≤ 'z' then some (.sextet (c.toNat - 71))
  else if '0' ≤ c ∧ c ≤ '9' then some (.sextet (c.toNat + 4))
  else if c = '+' then some (.sextet 62)
  else if c = '/' then some (.sextet 63)
  else if c = '=' then some .padding
  else if c = ' ' ∨ c = '\t' ∨ c = '\n' ∨ c = '\r' then some .blank
  else none

def scan : (sextets : Array Nat) → (padding : Nat) → List UInt8 → Except Fault (List Nat × Nat)
  | sextets, padding, [] => .ok (sextets.toList, padding)
  | sextets, padding, byte :: rest =>
    match symbol? byte with
    | none => .error (.invalidCharacter byte)
    | some .blank => scan sextets padding rest
    | some .padding => scan sextets (padding + 1) rest
    | some (.sextet bits) =>
      if padding = 0 then scan (sextets.push bits) 0 rest else .error .prematurePadding

/-- The bytes before, then those in the sextets: four make three bytes, two or three at the end make
one or two. -/
def join (before : Array UInt8) : List Nat → Option (List UInt8)
  | [] => some before.toList
  | [_] => none
  | [a, b] => some (before.push (UInt8.ofNat (a * 4 + b / 16))).toList
  | [a, b, c] =>
    some ((before.push (UInt8.ofNat (a * 4 + b / 16))).push (UInt8.ofNat (b * 16 + c / 4))).toList
  | a :: b :: c :: d :: rest =>
    join (((before.push (UInt8.ofNat (a * 4 + b / 16))).push (UInt8.ofNat (b * 16 + c / 4))).push
      (UInt8.ofNat (c * 64 + d))) rest

def decode (text : List UInt8) : Except Fault (List UInt8) :=
  match scan #[] 0 text with
  | .error fault => .error fault
  | .ok (sextets, padding) =>
    if padding ≠ 0 ∧ (2 < padding ∨ (sextets.length + padding) % 4 ≠ 0) then
      .error .invalidTrailingPadding
    else
      match join #[] sextets with
      | none => .error .invalidTrailingPadding
      | some bytes => .ok bytes

end SegmentClient.TrustStore.Base64
