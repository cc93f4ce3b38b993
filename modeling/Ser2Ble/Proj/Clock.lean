import Ser2Ble.Library.Clock

/-!
# The system tick of `proj/mcu/clock_i.h`

`reg_system_tick` counts at `CLOCK_SYS_CLOCK_HZ` = 16 MHz.  `now` is the
unbounded tick at which a statement runs; the program sees it modulo `2 ^ 32`.
-/

namespace Ser2Ble.Proj

open Library

/-- `CLOCK_SYS_CLOCK_1US`, ticks in one microsecond. -/
def clockSysClock1us : UInt32 := 16

def clockTime (now : Nat) : UInt32 :=
  Clock.reading now

/-- `(u32)(clock_time() - ref) > span_us * CLOCK_SYS_CLOCK_1US`. -/
def clockTimeExceed (now : Nat) (ref spanUs : UInt32) : Bool :=
  decide (spanUs * clockSysClock1us < clockTime now - ref)

/-- When the span in ticks fits 32 bits, the test is the comparison of the wrapped difference. -/
theorem clockTimeExceed_iff {now : Nat} {ref spanUs : UInt32} (fits : spanUs.toNat * 16 < 2 ^ 32) :
    clockTimeExceed now ref spanUs = true ↔
      spanUs.toNat * 16 < (clockTime now - ref).toNat := by
  rw [clockTimeExceed, decide_eq_true_iff, UInt32.lt_iff_toNat_lt, UInt32.toNat_mul]
  change spanUs.toNat * 16 % 2 ^ 32 < _ ↔ _
  rw [Nat.mod_eq_of_lt fits]

end Ser2Ble.Proj
