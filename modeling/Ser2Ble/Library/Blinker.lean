import Mathlib.Data.Nat.Basic

/-!
# A lamp toggled by polling

The lamp is polled now and then, and a poll toggles it at most once.  A toggle
moves the reference point by the span that ended and not to the time of the
poll, so that late polls do not add up.
-/

namespace Ser2Ble.Library

/-- The lamp and the tick from which its present span is counted. -/
structure Blinker where
  lit : Bool
  since : Nat

namespace Blinker

/-- The span the lamp is in; `on` and `off` are the lengths of the two. -/
def span (on off : Nat) (lamp : Blinker) : Nat :=
  if lamp.lit then on else off

/-- One poll. -/
def poll (on off : Nat) (lamp : Blinker) (now : Nat) : Blinker :=
  if lamp.since + lamp.span on off < now then ⟨!lamp.lit, lamp.since + lamp.span on off⟩ else lamp

/--
The lamp at tick `now` when it was lit at tick `start` and polled since: its
reference point is a whole number of periods after the start, half a period
off when dark, and at most one span back.
-/
structure InPhase (lamp : Blinker) (on off start now : Nat) : Prop where
  aligned : ∃ periods, lamp.since = start + periods * (on + off) + if lamp.lit then 0 else on
  begun : lamp.since = start ∨ lamp.since < now
  past : lamp.since ≤ now
  recent : now ≤ lamp.since + lamp.span on off

variable {on off start before now : Nat} {lamp : Blinker}

theorem InPhase.lighted : InPhase ⟨true, start⟩ on off start start where
  aligned := ⟨0, by simp⟩
  begun := Or.inl rfl
  past := Nat.le_refl _
  recent := Nat.le_add_right _ _

/-- The reference point of the next span is aligned when this one's is. -/
theorem InPhase.aligned_toggle (phase : lamp.InPhase on off start before) :
    ∃ periods, lamp.since + lamp.span on off =
      start + periods * (on + off) + if !lamp.lit then 0 else on := by
  obtain ⟨periods, since⟩ := phase.aligned
  rw [since, span]
  cases lamp.lit with
  | true => exact ⟨periods, by simp⟩
  | false => exact ⟨periods + 1, by simp only [Nat.succ_mul]; simp; omega⟩

/-- A poll that comes no later than the shorter span after the last keeps the phase. -/
theorem InPhase.poll (phase : lamp.InPhase on off start before) (ordered : before ≤ now)
    (soonOn : now ≤ before + on) (soonOff : now ≤ before + off) :
    (lamp.poll on off now).InPhase on off start now := by
  obtain ⟨aligned, begun, past, recent⟩ := phase
  unfold Blinker.poll
  split
  · next expired =>
      refine ⟨aligned_toggle ⟨aligned, begun, past, recent⟩, Or.inr expired, Nat.le_of_lt expired, ?_⟩
      change now ≤ lamp.since + lamp.span on off + if !lamp.lit then on else off
      cases lamp.lit <;> simp <;> omega
  · next within =>
      refine ⟨aligned, ?_, Nat.le_trans past ordered, Nat.le_of_not_lt within⟩
      rcases begun with same | earlier
      · exact Or.inl same
      · exact Or.inr (Nat.lt_of_lt_of_le earlier ordered)

/-- What a lamp in phase shows is a function of the time that passed since its start. -/
theorem InPhase.lit_iff (phase : lamp.InPhase on off start now) (positive : 0 < on) :
    lamp.lit = true ↔ (now - start - 1) % (on + off) < on := by
  obtain ⟨⟨periods, since⟩, begun, past, recent⟩ := phase
  have whole : ∀ inside, inside < on + off →
      (periods * (on + off) + inside) % (on + off) = inside := by
    intro inside below
    rw [Nat.add_comm, Nat.add_mul_mod_self_right, Nat.mod_eq_of_lt below]
  rw [span] at recent
  cases lit : lamp.lit with
  | true =>
      simp only [lit, if_true, Nat.add_zero] at since recent
      rcases begun with atStart | earlier
      · have inside := whole 0 (by omega)
        have elapsed : now - start - 1 ≤ on - 1 := by omega
        have small : now - start - 1 < on + off := by omega
        rw [Nat.mod_eq_of_lt small]
        simp
        omega
      · have inside := whole (now - lamp.since - 1) (by omega)
        have elapsed : now - start - 1 = periods * (on + off) + (now - lamp.since - 1) := by omega
        rw [elapsed, inside]
        simp
        omega
  | false =>
      simp only [lit, Bool.false_eq_true, if_false] at since recent
      have earlier : lamp.since < now := by omega
      have inside := whole (on + (now - lamp.since - 1)) (by omega)
      have elapsed : now - start - 1 = periods * (on + off) + (on + (now - lamp.since - 1)) := by
        omega
      rw [elapsed, inside]
      simp

end Blinker

end Ser2Ble.Library
