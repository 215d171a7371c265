import SegmentClient.Proofs.NodeAddress.Shown

namespace SegmentClient

namespace Text.Decimal

theorem le_ofDigitChars (digits : List Char) (value : Nat) : value ≤ Nat.ofDigitChars 10 digits value := by
  rw [Nat.ofDigitChars_eq_ofDigitChars_zero]
  exact Nat.le_add_right_of_le (Nat.le_mul_of_pos_left value (Nat.pow_pos (by decide)))

theorem readDigits_eq_ok_iff {limit value n : Nat} {digits : List Char} (hvalue : value ≤ limit) :
    readDigits limit value digits = .ok n ↔
      (∀ c ∈ digits, c.isDigit = true) ∧ Nat.ofDigitChars 10 digits value = n ∧ n ≤ limit := by
  fun_induction readDigits limit value digits with
  | case1 value =>
      constructor
      · intro h
        cases h
        exact ⟨List.forall_mem_nil _, rfl, hvalue⟩
      · rintro ⟨_, rfl, _⟩
        rfl
  | case2 value c rest hc hlarge =>
      refine iff_of_false (by rintro ⟨⟩) ?_
      rintro ⟨_, rfl, hle⟩
      have hgrows := le_ofDigitChars rest (10 * value + digitValue c)
      rw [Nat.mul_comm 10] at hgrows
      rw [Nat.ofDigitChars_cons, Nat.mul_comm 10] at hle
      exact absurd (Nat.le_trans hgrows hle) (Nat.not_le.mpr hlarge)
  | case3 value c rest hc hnext ih =>
      rw [ih (Nat.not_lt.mp hnext), List.forall_mem_cons, and_iff_right hc, Nat.ofDigitChars_cons,
        Nat.mul_comm 10]
      rfl
  | case4 value c rest hc =>
      refine iff_of_false (by rintro ⟨⟩) ?_
      rintro ⟨hall, _⟩
      exact hc (hall c List.mem_cons_self)

def signed (plus : Bool) (digits : List Char) : List Char := if plus then '+' :: digits else digits

theorem notMem_signed {digits : List Char} (h : ∀ c ∈ digits, c.isDigit = true) (plus : Bool) :
    ':' ∉ signed plus digits := by
  have hdigits : ':' ∉ digits := fun hmem => nomatch h _ hmem
  cases plus with
  | false => exact hdigits
  | true => exact List.not_mem_cons_of_ne_of_not_mem (by decide) hdigits

theorem signed_inj {plus plus' : Bool} {digits digits' : List Char} (h : ∀ c ∈ digits, c.isDigit = true)
    (h' : ∀ c ∈ digits', c.isDigit = true) (heq : signed plus digits = signed plus' digits') :
    plus = plus' ∧ digits = digits' := by
  have hplus : ∀ {front back : List Char}, (∀ c ∈ back, c.isDigit = true) → '+' :: front ≠ back := by
    rintro front back hback rfl
    cases hback '+' List.mem_cons_self
  cases plus <;> cases plus'
  · exact ⟨rfl, heq⟩
  · exact absurd heq.symm (hplus h)
  · exact absurd heq (hplus h')
  · exact ⟨rfl, List.tail_eq_of_cons_eq heq⟩

theorem read_signed {digits : List Char} (hne : digits ≠ []) (h : ∀ c ∈ digits, c.isDigit = true)
    (limit : Nat) (plus : Bool) : read limit (signed plus digits) = readDigits limit 0 digits := by
  cases digits with
  | nil => exact absurd rfl hne
  | cons c rest =>
      cases plus with
      | true => rfl
      | false =>
          have hplus : c ≠ '+' := by
            rintro rfl
            cases h '+' List.mem_cons_self
          simp [signed, read, hplus]

theorem exists_signed {limit n : Nat} {text : List Char} (h : read limit text = .ok n) :
    ∃ plus digits, text = signed plus digits ∧ digits ≠ [] ∧ readDigits limit 0 digits = .ok n := by
  unfold read at h
  split at h
  · cases h
  · cases h
  · rename_i digits hne
    exact ⟨true, digits, rfl, fun hnil => hne (by rw [hnil]), h⟩
  · rename_i hne _ _
    exact ⟨false, text, rfl, hne, h⟩

theorem read_eq_ok_iff {limit n : Nat} {text : List Char} :
    read limit text = .ok n ↔ ∃ plus digits, text = signed plus digits ∧ digits ≠ [] ∧
      (∀ c ∈ digits, c.isDigit = true) ∧ Nat.ofDigitChars 10 digits 0 = n ∧ n ≤ limit := by
  constructor
  · intro h
    obtain ⟨plus, digits, htext, hne, hread⟩ := exists_signed h
    exact ⟨plus, digits, htext, hne, (readDigits_eq_ok_iff (Nat.zero_le limit)).mp hread⟩
  · rintro ⟨plus, digits, rfl, hne, hdigits, hvalue⟩
    rw [read_signed hne hdigits]
    exact (readDigits_eq_ok_iff (Nat.zero_le limit)).mpr ⟨hdigits, hvalue⟩

end Text.Decimal

namespace NodeAddress

open Text

theorem exists_lastColon {text : List Char} (h : ':' ∈ text) :
    ∃ host port, text = host ++ ':' :: port ∧ ':' ∉ port := by
  obtain ⟨back, front, hreverse, hback⟩ := List.eq_append_cons_of_mem (List.mem_reverse.mpr h)
  refine ⟨front.reverse, back.reverse, ?_, by simpa using hback⟩
  rw [← List.reverse_reverse text, hreverse]
  simp

theorem splitPort?_eq_none_iff {text : List Char} : splitPort? text = none ↔ ':' ∉ text := by
  constructor
  · intro hnone hmem
    obtain ⟨host, port, rfl, hport⟩ := exists_lastColon hmem
    cases (splitPort?_append host hport).symm.trans hnone
  · intro hno
    have hdrop : text.reverse.dropWhile (· ≠ ':') = [] := by
      rw [List.dropWhile_eq_nil_iff]
      intro c hc
      exact decide_eq_true fun hcolon => hno (hcolon ▸ List.mem_reverse.mp hc)
    rw [splitPort?, hdrop]

theorem splitPort?_eq_some_iff {text host port : List Char} :
    splitPort? text = some (host, port) ↔ text = host ++ ':' :: port ∧ ':' ∉ port := by
  constructor
  · intro hsome
    have hmem : ':' ∈ text := by
      by_contra hno
      cases (splitPort?_eq_none_iff.mpr hno).symm.trans hsome
    obtain ⟨front, back, rfl, hback⟩ := exists_lastColon hmem
    cases (splitPort?_append front hback).symm.trans hsome
    exact ⟨rfl, hback⟩
  · rintro ⟨rfl, hport⟩
    exact splitPort?_append host hport

def bracketed (opening : Nat) (host : List Char) (closing : Nat) : List Char :=
  List.replicate opening '[' ++ host ++ List.replicate closing ']'

theorem exists_bracketed (host : List Char) :
    ∃ opening closing, host = bracketed opening (stripBrackets host) closing := by
  have hfront : ∀ c ∈ host.takeWhile (· = '['), c = '[' := by
    intro c hc
    simpa using List.mem_takeWhile_imp hc
  have hback : ∀ c ∈ (host.dropWhile (· = '[')).rtakeWhile (· = ']'), c = ']' := by
    intro c hc
    simpa using List.mem_rtakeWhile_imp hc
  have hrest : stripBrackets host ++ (host.dropWhile (· = '[')).rtakeWhile (· = ']') =
      host.dropWhile (· = '[') :=
    List.rdropWhile_append_rtakeWhile
  refine ⟨(host.takeWhile (· = '[')).length, ((host.dropWhile (· = '[')).rtakeWhile (· = ']')).length, ?_⟩
  rw [bracketed, ← List.eq_replicate_of_mem hfront, ← List.eq_replicate_of_mem hback, List.append_assoc, hrest,
    List.takeWhile_append_dropWhile]

section Bare

variable {host : List Char} (hbare : stripBrackets host = host) (opening closing : Nat)
include hbare

theorem dropWhile_bracketed :
    (bracketed opening host closing).dropWhile (· = '[') = host ++ List.replicate closing ']' := by
  have hhead := ((stripBrackets_eq_self_iff host).mp hbare).1
  rw [bracketed, List.append_assoc, List.dropWhile_append_of_pos (by simp), dropWhile_eq_self_iff]
  cases host with
  | nil => cases closing <;> simp [List.replicate_succ]
  | cons c host => simpa using hhead

theorem stripBrackets_bracketed : stripBrackets (bracketed opening host closing) = host := by
  have hback : dropEndWhile (· = ']') host = host := by
    rw [dropEndWhile_eq_self_iff]
    intro c hc
    have hlast := ((stripBrackets_eq_self_iff host).mp hbare).2
    exact decide_eq_false fun hclosing => hlast (hclosing ▸ hc)
  rw [stripBrackets, dropWhile_bracketed hbare, dropEndWhile, List.reverse_append, List.reverse_replicate,
    List.dropWhile_append_of_pos (by simp)]
  exact hback

theorem bracketed_inj {host' : List Char} (hbare' : stripBrackets host' = host') {opening' closing' : Nat}
    (h : bracketed opening host closing = bracketed opening' host' closing') :
    opening = opening' ∧ host = host' ∧ closing = closing' := by
  have hhost : host = host' := by
    rw [← stripBrackets_bracketed hbare opening closing, h, stripBrackets_bracketed hbare']
  subst hhost
  have hclosing : closing = closing' := by
    have hback := congrArg (List.dropWhile (· = '[')) h
    rw [dropWhile_bracketed hbare, dropWhile_bracketed hbare] at hback
    simpa using congrArg List.length hback
  subst hclosing
  have hopening : opening = opening' := by simpa [bracketed] using congrArg List.length h
  exact ⟨hopening, rfl, rfl⟩

end Bare

/-- A text `host:port` by its parts: a host that is not empty and has no bracket at either end to be
stripped, so many brackets on either side of it, and digits of a number that a port can have, with a plus
sign or without. -/
structure Spelling where
  opening : Nat
  host : List Char
  closing : Nat
  plus : Bool
  digits : List Char
  host_ne_nil : host ≠ []
  head_ne : host.head? ≠ some '['
  last_ne : host.getLast? ≠ some ']'
  digits_ne_nil : digits ≠ []
  isDigit : ∀ c ∈ digits, c.isDigit = true
  number_le : Nat.ofDigitChars 10 digits 0 ≤ maxPort

namespace Spelling

variable (spelling : Spelling)

def text : List Char :=
  bracketed spelling.opening spelling.host spelling.closing ++
    ':' :: Decimal.signed spelling.plus spelling.digits

structure Names (address : NodeAddress) : Prop where
  host : address.host.toList = spelling.host
  port : address.port.toNat = Nat.ofDigitChars 10 spelling.digits 0

theorem bare : stripBrackets spelling.host = spelling.host :=
  (stripBrackets_eq_self_iff spelling.host).mpr ⟨spelling.head_ne, spelling.last_ne⟩

theorem splitPort?_text : splitPort? spelling.text =
    some (bracketed spelling.opening spelling.host spelling.closing,
      Decimal.signed spelling.plus spelling.digits) :=
  splitPort?_append _ (Decimal.notMem_signed spelling.isDigit spelling.plus)

theorem read_signed : Decimal.read maxPort (Decimal.signed spelling.plus spelling.digits) =
    .ok (Nat.ofDigitChars 10 spelling.digits 0) :=
  Decimal.read_eq_ok_iff.mpr ⟨spelling.plus, spelling.digits, rfl, spelling.digits_ne_nil,
    spelling.isDigit, rfl, spelling.number_le⟩

theorem text_injective : Function.Injective text := by
  intro first second h
  have hsplit := first.splitPort?_text.symm.trans ((congrArg splitPort? h).trans second.splitPort?_text)
  obtain ⟨hhost, hport⟩ := Prod.mk.inj (Option.some.inj hsplit)
  have hbrackets := bracketed_inj first.bare _ _ second.bare hhost
  have hdigits := Decimal.signed_inj first.isDigit second.isDigit hport
  cases first
  cases second
  simp_all

theorem names_unique {spelling : Spelling} {first second : NodeAddress} (hfirst : spelling.Names first)
    (hsecond : spelling.Names second) : first = second := by
  obtain ⟨host, port⟩ := first
  obtain ⟨host', port'⟩ := second
  have hhost : host = host' := String.toList_inj.mp (hfirst.host.trans hsecond.host.symm)
  have hport : port = port' := UInt16.toNat_inj.mp (hfirst.port.trans hsecond.port.symm)
  rw [hhost, hport]

theorem names_ofList : spelling.Names
    ⟨String.ofList spelling.host, UInt16.ofNat (Nat.ofDigitChars 10 spelling.digits 0)⟩ where
  host := String.toList_ofList
  port := UInt16.toNat_ofNat_of_lt' (Nat.lt_succ_of_le spelling.number_le)

end Spelling

theorem exists_spelling {text host port : List Char} {number : Nat}
    (hsplit : splitPort? text = some (host, port)) (hne : stripBrackets host ≠ [])
    (hread : Decimal.read maxPort port = .ok number) :
    ∃ spelling : Spelling, spelling.text = text := by
  obtain ⟨htext, _⟩ := splitPort?_eq_some_iff.mp hsplit
  obtain ⟨opening, closing, hhost⟩ := exists_bracketed host
  obtain ⟨plus, digits, hport, hdigits, hall, hnumber, hle⟩ := Decimal.read_eq_ok_iff.mp hread
  obtain ⟨hhead, hlast⟩ := (stripBrackets_eq_self_iff _).mp (stripBrackets_stripBrackets host)
  refine ⟨⟨opening, stripBrackets host, closing, plus, digits, hne, hhead, hlast, hdigits, hall, ?_⟩, ?_⟩
  · rwa [hnumber]
  · rw [Spelling.text, ← hhost, ← hport, htext]

def Hostless (text : List Char) : Prop :=
  ∃ opening closing port, text = bracketed opening [] closing ++ ':' :: port ∧ ':' ∉ port

theorem hostless_of_stripBrackets {host port : List Char} (hnil : stripBrackets host = [])
    (hport : ':' ∉ port) :
    Hostless (host ++ ':' :: port) := by
  obtain ⟨opening, closing, hhost⟩ := exists_bracketed host
  rw [hnil] at hhost
  exact ⟨opening, closing, port, by rw [← hhost], hport⟩

/-- What there is to say of a text without blanks around it. -/
inductive Outcome (text : List Char) : Except Fault NodeAddress → Prop
  | missingPort : ':' ∉ text → Outcome text (.error (.missingPort (String.ofList text)))
  | emptyHost : Hostless text → Outcome text (.error (.emptyHost (String.ofList text)))
  | invalidPort : ':' ∈ text → ¬ Hostless text → (∀ spelling : Spelling, spelling.text ≠ text) →
      Outcome text (.error (.invalidPort (String.ofList text)))
  | address {address : NodeAddress} (spelling : Spelling) : spelling.text = text → spelling.Names address →
      Outcome text (.ok address)

theorem exists_outcome (text : List Char) : ∃ result, Outcome text result := by
  by_cases hcolon : ':' ∈ text
  · by_cases hhost : Hostless text
    · exact ⟨_, .emptyHost hhost⟩
    · by_cases hspelled : ∃ spelling : Spelling, spelling.text = text
      · obtain ⟨spelling, htext⟩ := hspelled
        exact ⟨_, .address spelling htext spelling.names_ofList⟩
      · exact ⟨_, .invalidPort hcolon hhost (not_exists.mp hspelled)⟩
  · exact ⟨_, .missingPort hcolon⟩

theorem parse_of_outcome {text : String} {result : Except Fault NodeAddress}
    (h : Outcome (trim text.toList) result) : parse text = result := by
  generalize htrimmed : trim text.toList = trimmed at h
  unfold parse
  simp only [htrimmed]
  cases h with
  | missingPort hno => rw [splitPort?_eq_none_iff.mpr hno]
  | emptyHost hhost =>
      obtain ⟨opening, closing, port, rfl, hport⟩ := hhost
      have hstripped : stripBrackets (bracketed opening [] closing) = [] := stripBrackets_bracketed rfl _ _
      rw [splitPort?_append _ hport]
      dsimp only
      rw [hstripped]
      exact if_pos rfl
  | invalidPort hcolon hhost hnone =>
      obtain ⟨host, port, rfl, hport⟩ := exists_lastColon hcolon
      have hsplit := splitPort?_append host hport
      have hne : stripBrackets host ≠ [] := fun hnil => hhost (hostless_of_stripBrackets hnil hport)
      rw [hsplit]
      dsimp only
      rw [if_neg (by rwa [List.isEmpty_iff])]
      cases hread : Decimal.read maxPort port with
      | error fault => rfl
      | ok number =>
          obtain ⟨spelling, hspelled⟩ := exists_spelling hsplit hne hread
          exact absurd hspelled (hnone spelling)
  | address spelling htext hnames =>
      rw [← htext, spelling.splitPort?_text]
      dsimp only
      rw [stripBrackets_bracketed spelling.bare, if_neg (by simpa using spelling.host_ne_nil),
        spelling.read_signed, Spelling.names_unique hnames spelling.names_ofList]

theorem parse_eq_iff_outcome {text : String} {result : Except Fault NodeAddress} :
    parse text = result ↔ Outcome (trim text.toList) result := by
  constructor
  · rintro rfl
    obtain ⟨result, houtcome⟩ := exists_outcome (trim text.toList)
    rwa [parse_of_outcome houtcome]
  · exact parse_of_outcome

/-- A text is read as an address exactly if it is spelled as one, once the blanks around it are gone; it
is spelled so in one way only. Any other text lacks a colon, or a host in front of the last one, or else a
port behind it; a text that lacks both host and port is said to lack the host. -/
theorem parse_eq_iff (text : String) :
    let trimmed := trim text.toList
    (∀ address, parse text = .ok address ↔
      ∃ spelling : Spelling, spelling.text = trimmed ∧ spelling.Names address) ∧
    (∀ first second : Spelling, first.text = second.text → first = second) ∧
    (parse text = .error (.missingPort (String.ofList trimmed)) ↔ ':' ∉ trimmed) ∧
    (parse text = .error (.emptyHost (String.ofList trimmed)) ↔ Hostless trimmed) ∧
    (parse text = .error (.invalidPort (String.ofList trimmed)) ↔
      ':' ∈ trimmed ∧ ¬ Hostless trimmed ∧ ∀ spelling : Spelling, spelling.text ≠ trimmed) := by
  intro trimmed
  simp only [parse_eq_iff_outcome]
  refine ⟨fun address => ?_, fun _ _ h => Spelling.text_injective h, ?_, ?_, ?_⟩
  · constructor
    · intro h
      cases h with
      | address spelling htext hnames => exact ⟨spelling, htext, hnames⟩
    · rintro ⟨spelling, htext, hnames⟩
      exact .address spelling htext hnames
  · constructor
    · intro h
      cases h with
      | missingPort hno => exact hno
    · exact .missingPort
  · constructor
    · intro h
      cases h with
      | emptyHost hhost => exact hhost
    · exact .emptyHost
  · constructor
    · intro h
      cases h with
      | invalidPort hcolon hhost hnone => exact ⟨hcolon, hhost, hnone⟩
    · rintro ⟨hcolon, hhost, hnone⟩
      exact .invalidPort hcolon hhost hnone

theorem parse_eq_iff_unmatched :
    parse "\u2003[[a]b[]:+00065535\n" = .ok ⟨"a]b[", 65535⟩ ∧
    parse " [[]]]:65536" = .error (.emptyHost "[[]]]:65536") := by
  let spelling : Spelling :=
    { opening := 2, host := ['a', ']', 'b', '['], closing := 1, plus := true
      digits := ['0', '0', '0', '6', '5', '5', '3', '5']
      host_ne_nil := by decide, head_ne := by decide, last_ne := by decide, digits_ne_nil := by decide
      isDigit := by simp, number_le := by decide }
  have htext : spelling.text = trim "\u2003[[a]b[]:+00065535\n".toList := by decide
  have hnames : spelling.Names ⟨"a]b[", 65535⟩ := ⟨by decide, by decide⟩
  have hhost : Hostless (trim " [[]]]:65536".toList) := ⟨2, 3, ['6', '5', '5', '3', '6'], by decide, by decide⟩
  exact ⟨((parse_eq_iff _).1 _).mpr ⟨spelling, htext, hnames⟩, (parse_eq_iff _).2.2.2.1.mpr hhost⟩

end NodeAddress

end SegmentClient
