import Mathlib.Data.Nat.Bitwise

/-!
# Wrapping tick counters

The tick of a running system is an unbounded number; a 32-bit register shows
it modulo `2 ^ 32`.  A stamp is a reading with its lowest bit set, so that it
is never zero and can double as an armed flag.
-/

namespace Ser2Ble.Library.Clock

/-- The 32-bit register at tick `now`. -/
def reading (now : Nat) : UInt32 :=
  UInt32.ofNat now

/-- The reading with its lowest bit set. -/
def stamp (now : Nat) : UInt32 :=
  reading now ||| 1

theorem stamp_eq (now : Nat) : stamp now = reading (now ||| 1) := by
  rw [← UInt32.toNat_inj, stamp, reading, reading, UInt32.toNat_or, UInt32.toNat_ofNat',
    UInt32.toNat_ofNat', UInt32.toNat_one, Nat.or_mod_two_pow]

/-- A stamp is never the idle value zero. -/
theorem stamp_ne_zero (now : Nat) : stamp now ≠ 0 := by
  intro zero
  have odd := congrArg (fun word : UInt32 => word.toNat.testBit 0) zero
  simp [stamp, UInt32.toNat_or] at odd

/-- Setting the lowest bit moves a tick by at most one. -/
theorem or_one_le (now : Nat) : now ≤ now ||| 1 ∧ now ||| 1 ≤ now + 1 := by
  refine ⟨Nat.left_le_or, ?_⟩
  have low : (now ||| 1) % 2 = 1 := by rw [Nat.or_mod_two_eq_one]; exact Or.inr rfl
  have high : (now ||| 1) / 2 = now / 2 := by rw [Nat.or_div_two]; simp
  omega

/-- The wrapped difference of two readings is the true difference modulo `2 ^ 32`. -/
theorem reading_sub {now before : Nat} (ordered : before ≤ now) :
    (reading now - reading before).toNat = (now - before) % 2 ^ 32 := by
  rw [reading, reading, UInt32.toNat_sub, UInt32.toNat_ofNat', UInt32.toNat_ofNat']
  omega

/-- What a later reading shows past a stamp. -/
theorem reading_sub_stamp {now before : Nat} (ordered : before < now) :
    (reading now - stamp before).toNat = (now - (before ||| 1)) % 2 ^ 32 := by
  rw [stamp_eq, reading_sub ((or_one_le before).2.trans ordered)]

/-- A later reading never shows more than what really elapsed since the stamp. -/
theorem reading_sub_stamp_le {now before : Nat} (ordered : before < now) :
    (reading now - stamp before).toNat ≤ now - before := by
  rw [reading_sub_stamp ordered]
  have lower := (or_one_le before).1
  exact (Nat.mod_le _ _).trans (Nat.sub_le_sub_left lower now)

/-- The ticks after `now` at which a span counted from `ref` is exceeded, as the register shows it. -/
def left (span ref now : Nat) : Nat :=
  span + 1 - (now - ref) % 2 ^ 32

/-- From `now` on the span is not exceeded any earlier. -/
theorem left_le {span ref now later : Nat} (ordered : ref ≤ now) (after : now ≤ later)
    (exceeded : span < (later - ref) % 2 ^ 32) : now + left span ref now ≤ later := by
  obtain ⟨before, rfl⟩ := Nat.exists_eq_add_of_le ordered
  obtain ⟨further, rfl⟩ := Nat.exists_eq_add_of_le after
  have sum : ref + before + further - ref = before + further := by omega
  rw [sum] at exceeded
  rw [left, Nat.add_sub_cancel_left]
  omega

/-- And then it is. -/
theorem left_exceeds {span ref now : Nat} (ordered : ref ≤ now) (short : span + 1 < 2 ^ 32) :
    span < (now + left span ref now - ref) % 2 ^ 32 := by
  obtain ⟨before, rfl⟩ := Nat.exists_eq_add_of_le ordered
  rw [left, Nat.add_sub_cancel_left]
  have sum : ref + before + (span + 1 - before % 2 ^ 32) - ref =
      before + (span + 1 - before % 2 ^ 32) := by omega
  rw [sum]
  omega

end Ser2Ble.Library.Clock
