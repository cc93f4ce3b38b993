import Mathlib.Data.List.Basic

/-!
# NUL-terminated strings in byte arrays

The string in an array is what stands before its first zero byte.  An array
without a zero byte holds no string: reading it runs past its end.
-/

namespace Ser2Ble.Library

/-- The bytes before the first zero. -/
def cString (bytes : List UInt8) : List UInt8 :=
  bytes.takeWhile (· ≠ 0)

def strlen (bytes : List UInt8) : Nat :=
  (cString bytes).length

theorem cString_zero (rest : List UInt8) : cString (0 :: rest) = [] := by
  rw [cString, List.takeWhile_cons_of_neg (by decide)]

theorem cString_cons {byte : UInt8} (nonzero : byte ≠ 0) (rest : List UInt8) :
    cString (byte :: rest) = byte :: cString rest :=
  List.takeWhile_cons_of_pos (by simpa using nonzero)

/-- A prefix of a terminated array is terminated exactly when it is longer than the string. -/
theorem zero_mem_take_iff {bytes : List UInt8} (terminated : 0 ∈ bytes) (count : Nat) :
    0 ∈ bytes.take count ↔ strlen bytes < count := by
  induction bytes generalizing count with
  | nil => cases terminated
  | cons byte rest ih =>
      cases count with
      | zero => simp only [List.take_zero, List.not_mem_nil, Nat.not_lt_zero]
      | succ count =>
          rw [List.take_succ_cons, List.mem_cons]
          by_cases zero : byte = 0
          · subst zero
            rw [strlen, cString_zero]
            exact iff_of_true (Or.inl rfl) (Nat.succ_pos _)
          · have later : 0 ∈ rest := by
              rcases List.mem_cons.mp terminated with first | later
              · exact absurd first.symm zero
              · exact later
            rw [strlen, cString_cons zero, List.length_cons, Nat.succ_lt_succ_iff, ← strlen,
              ← ih later count]
            exact or_iff_right fun first => zero first.symm

/-- What follows a terminated array does not matter. -/
theorem cString_append {bytes : List UInt8} (terminated : 0 ∈ bytes) (more : List UInt8) :
    cString (bytes ++ more) = cString bytes := by
  induction bytes with
  | nil => cases terminated
  | cons byte rest ih =>
      rw [List.cons_append]
      by_cases zero : byte = 0
      · rw [zero, cString_zero, cString_zero]
      · rcases List.mem_cons.mp terminated with first | later
        · exact absurd first.symm zero
        · rw [cString_cons zero, cString_cons zero, ih later]

/-- Overwriting the array after its terminator does not change the string. -/
theorem cString_take_append {bytes : List UInt8} {count : Nat} (terminated : 0 ∈ bytes.take count)
    (more : List UInt8) : cString (bytes.take count ++ more) = cString bytes := by
  rw [cString_append terminated]
  calc cString (bytes.take count)
      = cString (bytes.take count ++ bytes.drop count) := (cString_append terminated _).symm
    _ = cString bytes := by rw [List.take_append_drop]

end Ser2Ble.Library
