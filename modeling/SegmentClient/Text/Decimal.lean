namespace SegmentClient.Text.Decimal

inductive Fault
  | empty
  | invalidDigit
  | tooLarge
deriving DecidableEq, Repr

def Fault.message : Fault → String
  | empty => "cannot parse integer from empty string"
  | invalidDigit => "invalid digit found in string"
  | tooLarge => "number too large to fit in target type"

def digitValue (c : Char) : Nat := c.toNat - '0'.toNat

/-- Reads on from the value of the digits before; the first digit that is wrong or takes the value
past the limit decides. -/
def readDigits (limit value : Nat) : List Char → Except Fault Nat
  | [] => .ok value
  | c :: rest =>
    if c.isDigit then
      if limit < value * 10 + digitValue c then .error .tooLarge
      else readDigits limit (value * 10 + digitValue c) rest
    else .error .invalidDigit

def read (limit : Nat) : List Char → Except Fault Nat
  | [] => .error .empty
  | ['+'] => .error .invalidDigit
  | '+' :: digits => readDigits limit 0 digits
  | digits => readDigits limit 0 digits

def digit (n : Nat) : Char := Char.ofNat ('0'.toNat + n % 10)

def write (n : Nat) : List Char :=
  if n < 10 then [digit n] else write (n / 10) ++ [digit n]

theorem digit_eq (n : Nat) : (digit n).isDigit = true ∧ digitValue (digit n) = n % 10 := by
  have hall : ∀ d : Fin 10, (Char.ofNat ('0'.toNat + d)).isDigit = true ∧
      digitValue (Char.ofNat ('0'.toNat + d)) = d := by decide
  exact hall ⟨n % 10, Nat.mod_lt n (by decide)⟩

theorem readDigits_append (limit value : Nat) (front back : List Char) :
    readDigits limit value (front ++ back) =
      match readDigits limit value front with
      | .error fault => .error fault
      | .ok n => readDigits limit n back := by
  fun_induction readDigits limit value front with
  | case1 => rfl
  | case2 value c rest hc hlarge => simp [readDigits, hc, hlarge]
  | case3 value c rest hc hsmall ih => simp only [List.cons_append, readDigits, hc, hsmall, if_true,
      if_false, ih]
  | case4 value c rest hc => simp [readDigits, hc]

theorem readDigits_write (limit n : Nat) (hn : n ≤ limit) :
    readDigits limit 0 (write n) = .ok n := by
  fun_induction write n with
  | case1 n hsmall =>
    obtain ⟨hdigit, hvalue⟩ := digit_eq n
    rw [Nat.mod_eq_of_lt hsmall] at hvalue
    simp [readDigits, hdigit, hvalue, Nat.not_lt.2 hn]
  | case2 n hlarge ih =>
    obtain ⟨hdigit, hvalue⟩ := digit_eq n
    have hsum : n / 10 * 10 + n % 10 = n := by omega
    rw [readDigits_append, ih (by omega)]
    simp [readDigits, hdigit, hvalue, hsum, Nat.not_lt.2 hn]

theorem head_write (n : Nat) : ∃ m rest, write n = digit m :: rest := by
  fun_induction write n with
  | case1 n => exact ⟨n, [], rfl⟩
  | case2 n hlarge ih =>
    obtain ⟨m, rest, hrest⟩ := ih
    exact ⟨m, rest ++ [digit n], by rw [hrest, List.cons_append]⟩

theorem read_write (limit n : Nat) (hn : n ≤ limit) : read limit (write n) = .ok n := by
  have hread := readDigits_write limit n hn
  obtain ⟨m, rest, hrest⟩ := head_write n
  have hplus : digit m ≠ '+' := by
    intro h
    have hdigit := (digit_eq m).1
    rw [h] at hdigit
    exact absurd hdigit (by decide)
  rw [hrest] at hread ⊢
  rw [read]
  · exact hread
  · exact fun h => nomatch h
  · exact fun h => hplus (List.cons.inj h).1
  · exact fun _ h => hplus (List.cons.inj h).1

end SegmentClient.Text.Decimal
