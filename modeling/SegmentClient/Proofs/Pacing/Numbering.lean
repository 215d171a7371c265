import SegmentClient.Pacing
import Mathlib.Data.Int.Interval
import Mathlib.Data.List.Induction

namespace SegmentClient.Pacing

inductive Note
  | append (number : Int64) (size : Nat)
  | ack (number : Int64)
deriving DecidableEq, Repr

def Note.tell {σ : Type} [Pacing σ] (pacer : σ) : Note → σ
  | append number size => noteAppend pacer number size
  | ack number => (noteAck pacer number).1

def hear {σ : Type} [Pacing σ] (notes : List Note) (pacer : σ) : σ := notes.foldl Note.tell pacer

def recorded (notes : List Note) : List Int :=
  notes.filterMap fun
    | .append number _ => some number.toInt
    | .ack _ => none

def acknowledged (notes : List Note) : List Int :=
  notes.filterMap fun
    | .append _ _ => none
    | .ack number => some number.toInt

/-- Appends are recorded by positive numbers that increase; acknowledgements name recorded numbers and do
not go back. -/
inductive Orderly : List Note → Prop
  | nil : Orderly []
  | append {notes : List Note} {number : Int64} (size : Nat) : Orderly notes → 0 < number.toInt →
      (∀ n ∈ recorded notes, n < number.toInt) → Orderly (notes ++ [.append number size])
  | ack {notes : List Note} {number : Int64} : Orderly notes → number.toInt ∈ recorded notes →
      (∀ n ∈ acknowledged notes, n ≤ number.toInt) → Orderly (notes ++ [.ack number])

/-- No number was skipped between this one and the last. -/
def Unbroken (numbers : List Int) (number : Int) : Prop :=
  ∀ n, number < n → n ≤ numbers.getLastD 0 → n ∈ numbers

structure Ascending (numbers : List Int) : Prop where
  pairwise : numbers.Pairwise (· < ·)
  positive : ∀ n ∈ numbers, 0 < n
  le_last : ∀ n ∈ numbers, n ≤ numbers.getLastD 0
  last_nonneg : 0 ≤ numbers.getLastD 0

namespace Ascending

variable {numbers : List Int} {number : Int}

theorem concat (h : Ascending numbers) (hpos : 0 < number) (hbelow : ∀ n ∈ numbers, n < number) :
    Ascending (numbers ++ [number]) where
  pairwise := List.pairwise_append.mpr ⟨h.pairwise, List.pairwise_singleton .., by simpa using hbelow⟩
  positive := List.forall_mem_append.mpr ⟨h.positive, List.forall_mem_singleton.mpr hpos⟩
  le_last := by
    rw [List.getLastD_concat]
    have hle := fun n hn => Int.le_of_lt (hbelow n hn)
    exact List.forall_mem_append.mpr ⟨hle, List.forall_mem_singleton.mpr (Int.le_refl _)⟩
  last_nonneg := by
    rw [List.getLastD_concat]
    exact Int.le_of_lt hpos

theorem last_mem (h : Ascending numbers) (hpos : 0 < numbers.getLastD 0) : numbers.getLastD 0 ∈ numbers := by
  cases numbers using List.reverseRecOn with
  | nil => exact absurd hpos (Int.lt_irrefl 0)
  | append_singleton numbers number => simp

theorem countP_above (h : Ascending numbers) (hle : number ≤ numbers.getLastD 0) :
    let count : Nat := numbers.countP (number < ·)
    count ≤ numbers.getLastD 0 - number ∧
      (numbers.getLastD 0 - number = count ↔ Unbroken numbers number) := by
  intro count
  let above := (numbers.filter (number < ·)).toFinset
  have hmem : ∀ n, n ∈ above ↔ n ∈ numbers ∧ number < n := by simp [above]
  have hcard : above.card = count := by
    have hnodup := (h.pairwise.imp Int.ne_of_lt).filter (number < ·)
    rw [List.toFinset_card_of_nodup hnodup, ← List.countP_eq_length_filter]
  have hspan : ((Finset.Ioc number (numbers.getLastD 0)).card : Int) = numbers.getLastD 0 - number := by
    rw [Int.card_Ioc]
    omega
  have hsub : above ⊆ Finset.Ioc number (numbers.getLastD 0) := by
    intro n hn
    obtain ⟨hn, hlt⟩ := (hmem n).mp hn
    exact Finset.mem_Ioc.mpr ⟨hlt, h.le_last n hn⟩
  have hcount := Finset.card_le_card hsub
  refine ⟨by omega, ?_⟩
  constructor
  · intro hfull n hlt hle
    have hall : above = Finset.Ioc number (numbers.getLastD 0) :=
      Finset.eq_of_subset_of_card_le hsub (by omega)
    exact ((hmem n).mp (hall ▸ Finset.mem_Ioc.mpr ⟨hlt, hle⟩)).1
  · intro hunbroken
    have hall : above = Finset.Ioc number (numbers.getLastD 0) := by
      refine Finset.Subset.antisymm hsub fun n hn => ?_
      obtain ⟨hlt, hle⟩ := Finset.mem_Ioc.mp hn
      exact (hmem n).mpr ⟨hunbroken n hlt hle, hlt⟩
    rw [← hspan, ← hall, hcard]

theorem unbroken_iff (h : Ascending numbers) (hnonneg : 0 ≤ number) (hle : number ≤ numbers.getLastD 0)
    (hone : numbers.countP (number < ·) ≤ 1) : Unbroken numbers number ↔ numbers.getLastD 0 - number ≤ 1 := by
  obtain ⟨_, hcount⟩ := h.countP_above hle
  constructor
  · intro hunbroken
    have hsteps := hcount.mpr hunbroken
    omega
  · intro hsteps n hlt hn
    have hlast : n = numbers.getLastD 0 := by omega
    exact hlast ▸ h.last_mem (by omega)

end Ascending

section Notes

variable {σ : Type} [Pacing σ] (notes : List Note) (number : Int64)

@[simp] theorem hear_concat (note : Note) (pacer : σ) :
    hear (notes ++ [note]) pacer = note.tell (hear notes pacer) := by
  simp [hear]

@[simp] theorem recorded_append (size : Nat) :
    recorded (notes ++ [.append number size]) = recorded notes ++ [number.toInt] := by
  simp [recorded]

@[simp] theorem recorded_ack : recorded (notes ++ [.ack number]) = recorded notes := by
  simp [recorded]

@[simp] theorem acknowledged_append (size : Nat) :
    acknowledged (notes ++ [.append number size]) = acknowledged notes := by
  simp [acknowledged]

@[simp] theorem acknowledged_ack :
    acknowledged (notes ++ [.ack number]) = acknowledged notes ++ [number.toInt] := by
  simp [acknowledged]

end Notes

theorem numbers_hear (notes : List Note) :
    (hear notes ({} : Adaptive)).lastAppend.toInt = (recorded notes).getLastD 0 ∧
    (hear notes ({} : Adaptive)).lastAck.toInt = (acknowledged notes).getLastD 0 := by
  induction notes using List.reverseRecOn with
  | nil => exact ⟨rfl, rfl⟩
  | append_singleton notes note ih =>
      cases note with
      | append number size =>
          rw [hear_concat, recorded_append, acknowledged_append, List.getLastD_concat]
          exact ⟨rfl, ih.2⟩
      | ack number =>
          rw [hear_concat, recorded_ack, acknowledged_ack, List.getLastD_concat]
          exact ⟨ih.1, rfl⟩

namespace Orderly

variable {notes : List Note}

theorem ascending (h : Orderly notes) : Ascending (recorded notes) := by
  induction h with
  | nil => exact ⟨.nil, nofun, nofun, Int.le_refl 0⟩
  | append _ _ hpos hbelow ih =>
      rw [recorded_append]
      exact ih.concat hpos hbelow
  | ack _ _ _ ih =>
      rw [recorded_ack]
      exact ih

theorem acked_bounds (h : Orderly notes) : 0 ≤ (acknowledged notes).getLastD 0 ∧
    (acknowledged notes).getLastD 0 ≤ (recorded notes).getLastD 0 := by
  have hacked : (acknowledged notes).getLastD 0 = 0 ∨ (acknowledged notes).getLastD 0 ∈ recorded notes := by
    induction h with
    | nil => exact Or.inl rfl
    | append _ _ _ _ ih =>
        rw [recorded_append, acknowledged_append]
        exact ih.imp_right (List.mem_append_left _)
    | ack _ hmem =>
        rw [recorded_ack, acknowledged_ack, List.getLastD_concat]
        exact Or.inr hmem
  obtain hnone | hmem := hacked
  · rw [hnone]
    exact ⟨Int.le_refl 0, h.ascending.last_nonneg⟩
  · exact ⟨Int.le_of_lt (h.ascending.positive _ hmem), h.ascending.le_last _ hmem⟩

end Orderly

theorem toInt_sub_of_inRange {last number : Int64} (hlow : -2 ^ 63 ≤ last.toInt - number.toInt)
    (hhigh : last.toInt - number.toInt < 2 ^ 63) : (last - number).toInt = last.toInt - number.toInt := by
  rw [Int64.toInt_sub]
  exact Int.bmod_eq_of_le (by omega) (by omega)

theorem toInt_sub_of_le {last number : Int64} (hnonneg : 0 ≤ number.toInt) (hle : number.toInt ≤ last.toInt) :
    (last - number).toInt = last.toInt - number.toInt := by
  have hbound := last.toInt_lt
  exact toInt_sub_of_inRange (by omega) (by omega)

/-- An acknowledgement is answered by the steps from its number to the last. They are no fewer than the
appends that await acknowledgement, and as many exactly if no number above was skipped. Appends are held
back once the last number is more than a step above the last that was acknowledged: with at most one
append under way, nothing is held back as long as its number is the next. -/
theorem outstanding_of_orderly {notes : List Note} (h : Orderly notes) :
    let pacer := hear notes ({} : Adaptive)
    let numbers := recorded notes
    let acked := (acknowledged notes).getLastD 0
    (∀ number : Int64, number.toInt ∈ numbers →
      let awaiting : Nat := numbers.countP (number.toInt < ·)
      let answer := (noteAck pacer number).2.toInt
      answer = numbers.getLastD 0 - number.toInt ∧ awaiting ≤ answer ∧
      (answer = awaiting ↔ Unbroken numbers number.toInt)) ∧
    blockSize pacer = (if numbers.getLastD 0 - acked ≤ 1 then 0
      else min (pacer.outstanding.value * pacer.eventSize.value).toUInt64.toNat maxBlock) ∧
    (numbers.countP (acked < ·) ≤ 1 → (Unbroken numbers acked ↔ numbers.getLastD 0 - acked ≤ 1) ∧
      (Unbroken numbers acked → blockSize pacer = 0)) := by
  intro pacer numbers acked
  obtain ⟨hlast, hacked⟩ : pacer.lastAppend.toInt = numbers.getLastD 0 ∧ pacer.lastAck.toInt = acked :=
    numbers_hear notes
  obtain ⟨hnonneg, hle⟩ : 0 ≤ acked ∧ acked ≤ numbers.getLastD 0 := h.acked_bounds
  have hblock : blockSize pacer = (if numbers.getLastD 0 - acked ≤ 1 then 0
      else min (pacer.outstanding.value * pacer.eventSize.value).toUInt64.toNat maxBlock) := by
    have hsteps : pacer.lastAppend - pacer.lastAck ≤ 1 ↔ numbers.getLastD 0 - acked ≤ 1 := by
      rw [Int64.le_iff_toInt_le, toInt_sub_of_le (by omega) (by omega), hlast, hacked]
      rfl
    simp only [blockSize, Adaptive.blockSize, hsteps]
  refine ⟨fun number hmem => ?_, hblock, fun hone => ?_⟩
  · intro awaiting answer
    have hnumber : number.toInt ≤ numbers.getLastD 0 := h.ascending.le_last _ hmem
    have hanswer : answer = numbers.getLastD 0 - number.toInt := by
      have hpos := h.ascending.positive _ hmem
      rw [← hlast]
      exact toInt_sub_of_le (Int.le_of_lt hpos) (by omega)
    rw [hanswer]
    exact ⟨rfl, h.ascending.countP_above hnumber⟩
  · have hnext := h.ascending.unbroken_iff hnonneg hle hone
    refine ⟨hnext, fun hunbroken => ?_⟩
    rw [hblock, if_pos (hnext.mp hunbroken)]

theorem outstanding_of_orderly_skipped :
    let steady : List Note := [.append 7 100, .ack 7, .append 8 100]
    let skipping : List Note := steady ++ [.append 12 100]
    (Orderly steady ∧ (recorded steady).countP (7 < ·) = 1 ∧ blockSize (hear steady ({} : Adaptive)) = 0) ∧
    Orderly skipping ∧ (recorded skipping).countP (8 < ·) = 1 ∧
      (noteAck (hear skipping ({} : Adaptive)) 8).2.toInt = 4 ∧ ¬ Unbroken (recorded skipping) 8 := by
  intro steady skipping
  have hfirst : Orderly ([] ++ [.append 7 100]) := .append 100 .nil (by decide) nofun
  have hacked : Orderly ([.append 7 100] ++ [.ack 7]) := .ack hfirst (by decide) nofun
  have hsteady : Orderly steady := .append 100 hacked (by decide) (by decide)
  have hskipping : Orderly skipping := .append 100 hsteady (by decide) (by decide)
  have hone : (recorded steady).countP (7 < ·) = 1 := by decide
  have hunbroken : Unbroken (recorded steady) 7 := fun n hlt hle => by
    have hnext : n = 8 := Int.le_antisymm hle hlt
    rw [hnext]
    decide
  obtain ⟨_, _, hzero⟩ := outstanding_of_orderly hsteady
  obtain ⟨hanswer, _, hcounts⟩ := (outstanding_of_orderly hskipping).1 8 (by decide)
  have hskipped : ¬ Unbroken (recorded skipping) 8 := by
    intro h
    exact absurd (hanswer.symm.trans (hcounts.mpr h)) (by decide)
  exact ⟨⟨hsteady, hone, (hzero (Nat.le_of_eq hone)).2 hunbroken⟩, hskipping, by decide, hanswer, hskipped⟩

/-- Two appends of which the first is acknowledged: one is under way, and four are said to be. -/
theorem not_outstanding_skipped :
    let notes : List Note := [.append 1 100, .append 5 100]
    Orderly notes ∧ (1 : Int64).toInt ∈ recorded notes ∧ acknowledged notes = [] ∧
      (recorded notes).countP (1 < ·) = 1 ∧
      (noteAck (hear notes ({} : Adaptive)) 1).2.toInt = 4 ∧
      (noteAck (hear notes ({} : Adaptive)) 1).2.toInt ≠ (recorded notes).countP (1 < ·) := by
  intro notes
  have hfirst : Orderly ([] ++ [.append 1 100]) := .append 100 .nil (by decide) nofun
  have hnotes : Orderly notes := .append 100 hfirst (by decide) (by decide)
  exact ⟨hnotes, by decide, rfl, by decide, by decide, by decide⟩

end SegmentClient.Pacing
