import Ser2Ble.Library.Cells
import Ser2Ble.Library.Ring

/-!
# The byte-slot FIFO of `proj/common/utility.c`

`MYFIFO_INIT(name, size, n)` reserves `n` slots of `size` bytes and never
changes either number, so both are parameters of the type.  Only the two
free-running 8-bit counters and the bytes are state.
-/

namespace Ser2Ble.Proj

open Library

/-- `my_fifo_t`; `p` is the byte array `name_b`, indexed from its first byte. -/
structure MyFifo (size num : Nat) where
  wptr : UInt8
  rptr : UInt8
  p : Nat → UInt8

/-- `n` is a power of two that divides the range of the counters. -/
class RingSize (num : Nat) : Prop where
  power : ∃ bits ≤ 8, num = 2 ^ bits

instance : RingSize 64 := ⟨6, by decide, rfl⟩
instance : RingSize 8 := ⟨3, by decide, rfl⟩

namespace MyFifo

variable {size num : Nat}

/-- `MYFIFO_INIT`: both counters zero, all bytes zero. -/
def init : MyFifo size num := ⟨0, 0, fun _ => 0⟩

/-- `(f->wptr - f->rptr) & 255`. -/
def backlog (f : MyFifo size num) : Nat :=
  Ring.backlog f.wptr f.rptr

/-- `(counter & (f->num - 1)) * f->size`, the offset of a slot from `f->p`. -/
def slot (size num : Nat) (counter : UInt8) : Nat :=
  (counter.toNat &&& (num - 1)) * size

end MyFifo

variable {size num : Nat}

/-- The offset of the oldest slot, or `none` for the null pointer of an empty FIFO. -/
def myFifoGet (f : MyFifo size num) : Option Nat :=
  if f.rptr ≠ f.wptr then some (MyFifo.slot size num f.rptr) else none

def myFifoPop (f : MyFifo size num) : MyFifo size num :=
  { f with rptr := f.rptr + 1 }

/-! ## Slots -/

namespace RingSize

theorem divides (num : Nat) [ring : RingSize num] : num ∣ 256 := by
  obtain ⟨bits, small, rfl⟩ := ring.power
  exact Nat.pow_dvd_pow 2 small

end RingSize

namespace MyFifo

theorem slot_eq [ring : RingSize num] (counter : UInt8) :
    slot size num counter = Ring.index num counter * size := by
  obtain ⟨bits, _, rfl⟩ := ring.power
  rw [slot, Nat.and_two_pow_sub_one_eq_mod, Ring.index]

/-- Different slots occupy disjoint byte ranges. -/
theorem slot_disjoint (size : Nat) [RingSize num] {first second : UInt8}
    (different : Ring.index num first ≠ Ring.index num second) :
    slot size num first + size ≤ slot size num second ∨
      slot size num second + size ≤ slot size num first := by
  rw [slot_eq, slot_eq, ← Nat.succ_mul, ← Nat.succ_mul]
  rcases Nat.lt_or_gt_of_ne different with less | greater
  · exact Or.inl (Nat.mul_le_mul_right size less)
  · exact Or.inr (Nat.mul_le_mul_right size greater)

theorem slot_congr (size : Nat) [RingSize num] {first second : UInt8}
    (same : Ring.index num first = Ring.index num second) :
    slot size num first = slot size num second := by
  rw [slot_eq, slot_eq, same]

theorem slot_ne [RingSize num] (sized : 0 < size) {first second : UInt8}
    (different : Ring.index num first ≠ Ring.index num second) :
    slot size num first ≠ slot size num second := by
  have apart := slot_disjoint size different
  omega

/-- `my_fifo_get` answers exactly when the backlog is not empty. -/
theorem get_eq_some_iff (f : MyFifo size num) (fp : Nat) :
    myFifoGet f = some fp ↔ 0 < f.backlog ∧ fp = slot size num f.rptr := by
  rw [myFifoGet, backlog, Nat.pos_iff_ne_zero, ne_eq (Ring.backlog _ _), Ring.backlog_eq_zero_iff]
  split
  · next different => simp only [Option.some.injEq, different, not_false_eq_true, true_and, eq_comm]
  · next same => simp only [reduceCtorEq, same, false_and]

theorem get_eq_none_iff (f : MyFifo size num) : myFifoGet f = none ↔ f.backlog = 0 := by
  rw [myFifoGet, backlog, Ring.backlog_eq_zero_iff]
  split
  · next different => simp only [reduceCtorEq, different]
  · next same => simpa only [ne_eq, not_not, true_iff] using same

theorem pop_backlog {f : MyFifo size num} (some : 0 < f.backlog) :
    (myFifoPop f).backlog = f.backlog - 1 :=
  Ring.backlog_read some

end MyFifo

end Ser2Ble.Proj
