import Mathlib.Algebra.Group.Nat.Defs
import Mathlib.Data.List.Chain

/-!
# Debouncing a two-valued signal

The debounced value follows the signal once the last `width` samples agree.
Samples are listed with the newest first; before the first one the signal is
taken to have been at its initial level for ever.
-/

namespace Ser2Ble.Library.Debounce

/-- The last `width` samples, the newest first. -/
def recent (width : Nat) (initial : Bool) (samples : List Bool) : List Bool :=
  (samples ++ List.replicate width initial).take width

/-- The debounced value. -/
def value (width : Nat) (initial : Bool) : List Bool → Bool
  | [] => initial
  | sample :: older =>
      if ∀ other ∈ recent width initial (sample :: older), other = sample then sample
      else value width initial older

/-- The values that the debounced value changed to, the newest first. -/
def changes (width : Nat) (initial : Bool) : List Bool → List Bool
  | [] => []
  | sample :: older =>
      if value width initial (sample :: older) = value width initial older then
        changes width initial older
      else value width initial (sample :: older) :: changes width initial older

section Value

variable {width : Nat} {initial : Bool}

theorem value_steady {sample : Bool} {older : List Bool}
    (steady : ∀ other ∈ recent width initial (sample :: older), other = sample) :
    value width initial (sample :: older) = sample :=
  if_pos steady

theorem value_unsteady {sample other : Bool} {older : List Bool}
    (member : other ∈ recent width initial (sample :: older)) (different : other ≠ sample) :
    value width initial (sample :: older) = value width initial older :=
  if_neg fun steady => different (steady other member)

/-- A sample that agrees with the value leaves it. -/
theorem value_same {sample : Bool} {older : List Bool}
    (agrees : value width initial older = sample) :
    value width initial (sample :: older) = sample := by
  unfold value
  split
  · rfl
  · exact agrees

/-- The value changes exactly to a sample that has been steady and differs from it. -/
theorem value_ne_iff {sample : Bool} {older : List Bool} :
    value width initial (sample :: older) ≠ value width initial older ↔
      (∀ other ∈ recent width initial (sample :: older), other = sample) ∧
        value width initial older ≠ sample := by
  constructor
  · intro changed
    by_cases steady : ∀ other ∈ recent width initial (sample :: older), other = sample
    · refine ⟨steady, fun agrees => changed ?_⟩
      rw [value_steady steady, agrees]
    · exact absurd (if_neg steady) changed
  · rintro ⟨steady, differs⟩ same
    rw [value_steady steady] at same
    exact differs same.symm

end Value

/-! ## The sequence of changes -/

section Changes

variable (width : Nat) (initial : Bool)

/-- The value is the last change. -/
theorem value_eq_headD (samples : List Bool) :
    value width initial samples = (changes width initial samples).headD initial := by
  induction samples with
  | nil => rfl
  | cons sample older ih =>
      unfold changes
      split
      · next same => rw [same, ih]
      · rfl

/-- Changes alternate. -/
theorem changes_alternate (samples : List Bool) :
    (changes width initial samples).IsChain (· ≠ ·) := by
  induction samples with
  | nil => exact List.isChain_nil
  | cons sample older ih =>
      unfold changes
      split
      · exact ih
      · next changed =>
          rw [value_eq_headD width initial older] at changed
          cases shape : changes width initial older with
          | nil => exact List.isChain_singleton _
          | cons newest rest =>
              rw [shape] at changed ih
              exact ih.cons_cons changed

/-- The oldest change is away from the initial level. -/
theorem changes_oldest (samples : List Bool) {oldest : Bool}
    (last : (changes width initial samples).getLast? = some oldest) : oldest = !initial := by
  induction samples with
  | nil => cases last
  | cons sample older ih =>
      unfold changes at last
      split at last
      · exact ih last
      · next changed =>
          rw [value_eq_headD width initial older] at changed
          cases shape : changes width initial older with
          | nil =>
              rw [shape] at changed last
              rw [List.getLast?_singleton, Option.some.injEq] at last
              rw [← last]
              exact Bool.eq_not_of_ne changed
          | cons newest rest =>
              rw [shape, List.getLast?_cons_cons, ← shape] at last
              exact ih last

end Changes

/-! ## Short disturbances -/

section Disturbance

variable {width : Nat} {initial level : Bool}

/-- The newest sample, or the initial level before the first one. -/
def newest (initial : Bool) (samples : List Bool) : Bool :=
  samples.headD initial

/-- While fewer than `width` samples follow one at the debounced value, nothing changes. -/
theorem value_disturbed {disturbed older : List Bool} (short : disturbed.length < width)
    (last : newest initial older = level) (settled : value width initial older = level) :
    value width initial (disturbed ++ older) = level ∧
      changes width initial (disturbed ++ older) = changes width initial older := by
  induction disturbed with
  | nil => exact ⟨settled, rfl⟩
  | cons sample later ih =>
      rw [List.length_cons] at short
      obtain ⟨before, same⟩ := ih (by omega)
      have still : value width initial (sample :: (later ++ older)) = level := by
        by_cases agrees : sample = level
        · rw [agrees]
          exact value_same before
        · -- the sample before the disturbance is still among the recent ones
          have member : level ∈ recent width initial (sample :: (later ++ older)) := by
            have position : ((sample :: (later ++ older)) ++
                List.replicate width initial)[later.length + 1]? = some level := by
              have reached : (sample :: later).length ≤ later.length + 1 := Nat.le_refl _
              rw [← List.cons_append, List.append_assoc, List.getElem?_append_right reached,
                List.length_cons, Nat.sub_self]
              cases older with
              | nil =>
                  cases width with
                  | zero => cases short
                  | succ width => exact congrArg some last
              | cons head rest => exact congrArg some last
            rw [recent, List.mem_iff_getElem?]
            exact ⟨later.length + 1, by rw [List.getElem?_take_of_lt short, position]⟩
          rw [value_unsteady member (Ne.symm agrees), before]
      refine ⟨still, ?_⟩
      rw [List.cons_append, changes, still, before, if_pos rfl, same]

/-- Samples at the debounced value change nothing. -/
theorem value_restored {restored older : List Bool} (restores : ∀ sample ∈ restored, sample = level)
    (settled : value width initial older = level) :
    value width initial (restored ++ older) = level ∧
      changes width initial (restored ++ older) = changes width initial older := by
  induction restored with
  | nil => exact ⟨settled, rfl⟩
  | cons sample later ih =>
      obtain ⟨before, same⟩ := ih fun other member => restores other (List.mem_cons_of_mem _ member)
      have still : value width initial (sample :: (later ++ older)) = level := by
        rw [restores sample List.mem_cons_self]
        exact value_same before
      refine ⟨still, ?_⟩
      rw [List.cons_append, changes, still, before, if_pos rfl, same]

end Disturbance

/-! ## Samples in a shift register -/

/-- The number whose bits are the samples, the newest in bit 0. -/
def packed : List Bool → Nat
  | [] => 0
  | sample :: older => sample.toNat + 2 * packed older

theorem packed_take (samples : List Bool) (count : Nat) :
    packed (samples.take count) = packed samples % 2 ^ count := by
  induction count generalizing samples with
  | zero => rw [List.take_zero, Nat.pow_zero, Nat.mod_one, packed]
  | succ count ih =>
      cases samples with
      | nil => rw [List.take_nil, packed, Nat.zero_mod]
      | cons sample older =>
          rw [List.take_succ_cons, packed, packed, ih, Nat.pow_succ, Nat.mul_comm (2 ^ count)]
          have bit := sample.toNat_le
          have half : (sample.toNat + 2 * packed older) / 2 = packed older := by omega
          rw [Nat.mod_mul, half]
          omega

theorem packed_eq_zero_iff (samples : List Bool) :
    packed samples = 0 ↔ ∀ sample ∈ samples, sample = false := by
  induction samples with
  | nil => exact iff_of_true rfl fun sample member => nomatch member
  | cons sample older ih =>
      rw [List.forall_mem_cons, ← ih, packed]
      cases sample with
      | false =>
          rw [Bool.toNat_false]
          constructor
          · intro zero
            exact ⟨rfl, by omega⟩
          · rintro ⟨_, zero⟩
            omega
      | true =>
          rw [Bool.toNat_true]
          constructor
          · intro zero
            omega
          · rintro ⟨impossible, _⟩
            cases impossible

theorem packed_eq_ones_iff (samples : List Bool) :
    packed samples = 2 ^ samples.length - 1 ↔ ∀ sample ∈ samples, sample = true := by
  induction samples with
  | nil => exact iff_of_true rfl fun sample member => nomatch member
  | cons sample older ih =>
      have positive := Nat.two_pow_pos older.length
      rw [List.forall_mem_cons, ← ih, packed, List.length_cons, Nat.pow_succ]
      cases sample with
      | false =>
          rw [Bool.toNat_false]
          constructor
          · intro odd
            omega
          · rintro ⟨impossible, _⟩
            cases impossible
      | true =>
          rw [Bool.toNat_true]
          constructor
          · intro same
            exact ⟨rfl, by omega⟩
          · rintro ⟨_, same⟩
            omega

end Ser2Ble.Library.Debounce
