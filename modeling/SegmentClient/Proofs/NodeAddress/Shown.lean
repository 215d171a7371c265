import SegmentClient.NodeAddress
import Mathlib.Data.List.DropRight

namespace SegmentClient

namespace Text

variable {p : Char → Bool} {text : List Char}

theorem dropWhile_eq_self_iff : text.dropWhile p = text ↔ ∀ c ∈ text.head?, p c = false := by
  cases text with
  | nil => simp
  | cons c text => simp [List.dropWhile_eq_self_iff]

theorem dropEndWhile_eq_self_iff : dropEndWhile p text = text ↔ ∀ c ∈ text.getLast?, p c = false := by
  rw [dropEndWhile, List.reverse_eq_iff, dropWhile_eq_self_iff, List.head?_reverse]

theorem dropWhile_append_cons (front : List Char) {c : Char} (rest : List Char) (hc : p c = false) :
    (front ++ c :: rest).dropWhile p = front.dropWhile p ++ c :: rest := by
  rw [List.dropWhile_append, List.dropWhile_cons_of_neg (by simp [hc])]
  split
  · rename_i hnone
    rw [List.isEmpty_iff.mp hnone, List.nil_append]
  · rfl

namespace Decimal

theorem isDigit_write (n : Nat) : ∀ c ∈ write n, c.isDigit = true := by
  fun_induction write n with
  | case1 n => exact List.forall_mem_singleton.mpr (digit_eq n).1
  | case2 n hlarge ih => exact List.forall_mem_append.mpr ⟨ih, List.forall_mem_singleton.mpr (digit_eq n).1⟩

theorem getLast?_write (n : Nat) : (write n).getLast? = some (digit n) := by
  rw [write]
  split
  · rfl
  · exact List.getLast?_concat

theorem isBlank_digit (n : Nat) : isBlank (digit n) = false := by
  have hall : ∀ d : Fin 10, isBlank (Char.ofNat ('0'.toNat + d)) = false := by decide
  exact hall ⟨n % 10, Nat.mod_lt n (by decide)⟩

end Decimal

end Text

namespace NodeAddress

open Text

theorem splitPort?_append (host : List Char) {port : List Char} (h : ':' ∉ port) :
    splitPort? (host ++ ':' :: port) = some (host, port) := by
  have hport : ∀ c ∈ port.reverse, decide (c ≠ ':') = true := by
    intro c hc
    exact decide_eq_true fun heq => h (heq ▸ List.mem_reverse.mp hc)
  have hreverse : (host ++ ':' :: port).reverse = port.reverse ++ ':' :: host.reverse := by simp
  rw [splitPort?, hreverse, List.dropWhile_append_of_pos hport, List.takeWhile_append_of_pos hport]
  simp

section Brackets

variable (host : List Char)

theorem stripBrackets_enclosed : stripBrackets ('[' :: host ++ [']']) = stripBrackets host := by
  rw [stripBrackets, List.cons_append, List.dropWhile_cons_of_pos (by decide),
    dropWhile_append_cons host [] (by decide)]
  exact List.rdropWhile_concat_pos _ _ _ (by decide)

theorem stripBrackets_prefix_dropWhile : stripBrackets host <+: host.dropWhile (· = '[') :=
  List.rdropWhile_prefix (· = ']') _

theorem length_stripBrackets_le : (stripBrackets host).length ≤ host.length :=
  Nat.le_trans (stripBrackets_prefix_dropWhile host).length_le (List.dropWhile_suffix _).length_le

theorem stripBrackets_eq_self_iff :
    stripBrackets host = host ↔ host.head? ≠ some '[' ∧ host.getLast? ≠ some ']' := by
  have hfront : host.dropWhile (· = '[') = host ↔ host.head? ≠ some '[' := by
    rw [dropWhile_eq_self_iff]
    cases host.head? <;> simp
  have hback : dropEndWhile (· = ']') host = host ↔ host.getLast? ≠ some ']' := by
    rw [dropEndWhile_eq_self_iff]
    cases host.getLast? <;> simp
  rw [← hfront, ← hback]
  constructor
  · intro h
    have hlength := (stripBrackets_prefix_dropWhile host).length_le
    rw [h] at hlength
    have hwhole : host.dropWhile (· = '[') = host := (List.dropWhile_suffix _).eq_of_length_le hlength
    exact ⟨hwhole, by rwa [stripBrackets, hwhole] at h⟩
  · rintro ⟨hhead, hlast⟩
    rw [stripBrackets, hhead, hlast]

theorem stripBrackets_stripBrackets : stripBrackets (stripBrackets host) = stripBrackets host := by
  have hfront := dropWhile_eq_self_iff.mp (List.dropWhile_idempotent (· = '[') host)
  have hstripped : (stripBrackets host).dropWhile (· = '[') = stripBrackets host := by
    rw [dropWhile_eq_self_iff]
    intro c hc
    obtain ⟨rest, hrest⟩ := stripBrackets_prefix_dropWhile host
    apply hfront
    rw [← hrest, List.head?_append, Option.mem_def.mp hc]
    rfl
  rw [stripBrackets, hstripped]
  exact List.rdropWhile_idempotent (· = ']') _

end Brackets

/-- What is left of a host in front of the port once the blanks around the text are gone. -/
def front (host : List Char) : List Char :=
  if ':' ∈ host then '[' :: host ++ [']'] else host.dropWhile isBlank

theorem trim_shown (address : NodeAddress) :
    trim address.shown = front address.host.toList ++ ':' :: Decimal.write address.port.toNat := by
  have hlast : ∀ before : List Char, dropEndWhile isBlank (before ++ ':' :: Decimal.write address.port.toNat) =
      before ++ ':' :: Decimal.write address.port.toNat := by
    intro before
    rw [dropEndWhile_eq_self_iff, List.getLast?_append, List.getLast?_cons, Decimal.getLast?_write]
    simp [Decimal.isBlank_digit]
  rw [trim, shown, dropWhile_append_cons _ _ (by decide), hlast, front]
  split
  · rw [List.cons_append, List.dropWhile_cons_of_neg (by decide)]
  · rfl

theorem stripBrackets_front_eq_self_iff (host : List Char) : stripBrackets (front host) = host ↔
    host.head? ≠ some '[' ∧ host.getLast? ≠ some ']' ∧ (':' ∈ host ∨ ∀ c ∈ host.head?, isBlank c = false) := by
  rw [front, ← and_assoc, ← stripBrackets_eq_self_iff, ← dropWhile_eq_self_iff]
  split
  · rename_i hcolon
    rw [stripBrackets_enclosed, and_iff_left (Or.inl hcolon)]
  · rename_i hcolon
    rw [or_iff_right hcolon]
    constructor
    · intro h
      have hlength := length_stripBrackets_le (host.dropWhile isBlank)
      rw [h] at hlength
      have hwhole : host.dropWhile isBlank = host := (List.dropWhile_suffix _).eq_of_length_le hlength
      exact ⟨by rwa [hwhole] at h, hwhole⟩
    · rintro ⟨hbare, hwhole⟩
      rw [hwhole, hbare]

theorem parse_display (address : NodeAddress) :
    let host := stripBrackets (front address.host.toList)
    parse address.display = if host.isEmpty then .error (.emptyHost (String.ofList (trim address.shown)))
      else .ok ⟨String.ofList host, address.port⟩ := by
  intro host
  have hport : ':' ∉ Decimal.write address.port.toNat := fun h => nomatch Decimal.isDigit_write _ _ h
  have hread : Decimal.read maxPort (Decimal.write address.port.toNat) = .ok address.port.toNat :=
    Decimal.read_write maxPort _ (Nat.le_of_lt_succ address.port.toNat_lt)
  have hsplit := splitPort?_append (front address.host.toList) hport
  rw [← trim_shown] at hsplit
  simp only [parse, display, String.toList_ofList, hsplit, hread, UInt16.ofNat_toNat, host]

theorem bare_of_parse {text : String} {address : NodeAddress} (h : parse text = .ok address) :
    address.host.toList ≠ [] ∧ stripBrackets address.host.toList = address.host.toList := by
  unfold parse at h
  dsimp only at h
  split at h
  · cases h
  · rename_i host port hsplit
    split at h
    · cases h
    · rename_i hne
      split at h
      · cases h
      · cases h
        rw [String.toList_ofList]
        exact ⟨fun hnil => hne (List.isEmpty_iff.mpr hnil), stripBrackets_stripBrackets host⟩

/-- An address is read back from the text it is shown as if its host is not empty, has no bracket at either
end to be stripped, and has no blank in front, unless a colon in the host has it shown in brackets. Hosts
that have been read are of that kind, but for those without a colon and with a blank in front. -/
theorem parse_display_iff (address : NodeAddress) :
    let host := address.host.toList
    (parse address.display = .ok address ↔ host ≠ [] ∧ host.head? ≠ some '[' ∧ host.getLast? ≠ some ']' ∧
      (':' ∈ host ∨ ∀ c ∈ host.head?, isBlank c = false)) ∧
    ∀ text, parse text = .ok address →
      (parse address.display = .ok address ↔ ¬ (':' ∉ host ∧ ∃ c ∈ host.head?, isBlank c = true)) := by
  intro host
  have hshown : parse address.display = .ok address ↔ host ≠ [] ∧ stripBrackets (front host) = host := by
    rw [parse_display]
    constructor
    · intro h
      split at h
      · cases h
      · rename_i hne
        have hhost : stripBrackets (front host) = host := by
          rw [← String.toList_ofList (l := stripBrackets (front host))]
          exact congrArg (·.host.toList) (Except.ok.inj h)
        exact ⟨fun hnil => hne (List.isEmpty_iff.mpr (hhost.trans hnil)), hhost⟩
    · rintro ⟨hne, hhost⟩
      rw [hhost, if_neg (by rwa [List.isEmpty_iff]), String.ofList_toList]
  rw [stripBrackets_front_eq_self_iff] at hshown
  refine ⟨hshown, fun text htext => ?_⟩
  obtain ⟨hne, hbare⟩ := bare_of_parse htext
  obtain ⟨hhead, hlast⟩ := (stripBrackets_eq_self_iff host).mp hbare
  rw [hshown, and_iff_right hne, and_iff_right hhead, and_iff_right hlast]
  simp [or_iff_not_imp_left]

theorem parse_display_iff_blank :
    (parse "[ a]:80" = .ok ⟨" a", 80⟩ ∧ parse (display ⟨" a", 80⟩) ≠ .ok ⟨" a", 80⟩) ∧
    parse " [[ ::1]]]:+080 " = .ok ⟨" ::1", 80⟩ ∧ parse (display ⟨" ::1", 80⟩) = .ok ⟨" ::1", 80⟩ := by
  have hblank : parse "[ a]:80" = .ok ⟨" a", 80⟩ := by decide
  have hcolon : parse " [[ ::1]]]:+080 " = .ok ⟨" ::1", 80⟩ := by decide
  refine ⟨⟨hblank, fun h => ?_⟩, hcolon, ?_⟩
  · exact ((parse_display_iff ⟨" a", 80⟩).2 _ hblank).mp h ⟨by decide, ' ', rfl, by decide⟩
  · exact ((parse_display_iff ⟨" ::1", 80⟩).2 _ hcolon).mpr fun h => h.1 (by decide)

end NodeAddress

end SegmentClient
