import Ser2Ble.Library.CString
import Ser2Ble.Library.Overlap

/-!
# The copies of `proj/common/string.c`

The firmware is linked with these functions and not with the compiler's own.
Addresses are numbers and 0 is the null pointer.
-/

namespace Ser2Ble.Proj

open Library

def bbcopy (memory : Nat → UInt8) (src dest len : Nat) : Nat → UInt8 :=
  if dest < src then Cells.up memory dest src len
  else Cells.down memory (dest + (len - 1)) (src + (len - 1)) len

def bcopy (memory : Nat → UInt8) (src dest len : Nat) : Nat → UInt8 :=
  bbcopy memory src dest len

def memcpy (memory : Nat → UInt8) (out input length : Nat) : Nat → UInt8 :=
  bcopy memory input out length

def memmove (memory : Nat → UInt8) (dest src n : Nat) : Nat → UInt8 :=
  Cells.up memory dest src n

def memset (memory : Nat → UInt8) (dest : Nat) (val : UInt8) : Nat → Nat → UInt8
  | 0 => memory
  | len + 1 => memset (Cells.store memory dest val) (dest + 1) val len

/-- The loop does not stop at a zero byte; without a source one zero more than `n` is written. -/
def strncpy (memory : Nat → UInt8) (s t n : Nat) : Nat → UInt8 :=
  if s = 0 then memory
  else if t = 0 then memset memory s 0 (n + 1)
  else Cells.up memory s t n

/-! ## Blocks that overlap -/

/-- `memcpy` copies the block as it was before the call, however the two blocks overlap. -/
theorem memcpy_exact (memory : Nat → UInt8) (out input length : Nat) :
    memcpy memory out input length = Cells.copy memory out (Cells.window memory input length) := by
  unfold memcpy bcopy bbcopy
  split
  · next below => exact Cells.up_eq_copy memory (Or.inl (Nat.le_of_lt below))
  · next above => exact Cells.down_eq_copy memory length (Nat.not_lt.mp above)

/--
`memmove`, which the standard gives the task, does so for every memory exactly
when the destination does not start inside the source.
-/
theorem memmove_exact_iff (dest src n : Nat) :
    (∀ memory, memmove memory dest src n = Cells.copy memory dest (Cells.window memory src n)) ↔
      dest ≤ src ∨ src + n ≤ dest := by
  constructor
  · intro exact
    by_contra inside
    obtain ⟨distance, rfl⟩ := Nat.exists_eq_add_of_le (show src ≤ dest by omega)
    obtain ⟨rest, rfl⟩ := Nat.exists_eq_add_of_lt (show distance < n by omega)
    -- the byte at the source comes out twice, and the byte at the destination is lost
    have same := congrFun (exact fun address => if address = src then 1 else 0)
      (src + distance + distance)
    have held : (Cells.window (fun address => if address = src then (1 : UInt8) else 0) src
        (distance + rest + 1))[distance]? = some 0 := by
      rw [Cells.window, List.getElem?_map, List.getElem?_range (by omega)]
      simp
      omega
    rw [memmove, Nat.add_assoc distance, Cells.up_repeats _ (by omega)] at same
    rw [Nat.add_assoc distance] at held
    rw [Cells.copy_inside _ _ held] at same
    simp at same
  · intro apart memory
    exact Cells.up_eq_copy memory apart

/-! ## Strings -/

theorem memset_eq (memory : Nat → UInt8) (dest : Nat) (val : UInt8) (len : Nat) :
    memset memory dest val len = Cells.copy memory dest (List.replicate len val) := by
  induction len generalizing memory dest with
  | zero => rfl
  | succ len ih =>
      rw [memset, ih, List.replicate_succ]
      rfl

/-- What the standard's `strncpy` makes of the bytes at the source: the string, and zeros behind it. -/
def padded (bytes : List UInt8) : List UInt8 :=
  cString bytes ++ List.replicate (bytes.length - strlen bytes) 0

theorem padded_eq_iff (bytes : List UInt8) :
    bytes = padded bytes ↔ ∀ byte ∈ bytes.dropWhile (· ≠ 0), byte = 0 := by
  have split : cString bytes ++ bytes.dropWhile (· ≠ 0) = bytes := List.takeWhile_append_dropWhile
  have length := congrArg List.length split
  rw [List.length_append] at length
  have rest : bytes = padded bytes ↔
      bytes.dropWhile (· ≠ 0) = List.replicate (bytes.length - strlen bytes) 0 := by
    constructor
    · intro same
      exact List.append_cancel_left (split.trans same)
    · intro same
      exact split.symm.trans (congrArg (cString bytes ++ ·) same)
  rw [rest, List.eq_replicate_iff]
  have same : (bytes.dropWhile (· ≠ 0)).length = bytes.length - strlen bytes := by
    rw [strlen]
    omega
  simp only [same, true_and]

/--
`strncpy` writes what the standard's does exactly when nothing but zeros follows
the end of the string in the bytes that it reads.
-/
theorem strncpy_standard_iff {memory : Nat → UInt8} {s t n : Nat} (target : s ≠ 0) (source : t ≠ 0)
    (apart : s ≤ t ∨ t + n ≤ s) :
    strncpy memory s t n = Cells.copy memory s (padded (Cells.window memory t n)) ↔
      ∀ byte ∈ (Cells.window memory t n).dropWhile (· ≠ 0), byte = 0 := by
  have length : (padded (Cells.window memory t n)).length = n := by
    have most : strlen (Cells.window memory t n) ≤ n := by
      have short := (List.takeWhile_sublist (l := Cells.window memory t n) (· ≠ 0)).length_le
      rwa [Cells.window_length] at short
    rw [padded, List.length_append, List.length_replicate, Cells.window_length]
    exact Nat.add_sub_cancel' most
  rw [strncpy, if_neg target, if_neg source, Cells.up_eq_copy memory apart, ← padded_eq_iff]
  constructor
  · intro same
    have first := Cells.window_copy memory s (Cells.window memory t n)
    have second := Cells.window_copy memory s (padded (Cells.window memory t n))
    rw [Cells.window_length] at first
    rw [length, ← same, first] at second
    exact second
  · intro same
    rw [← same]

/-- "A", its end, and another letter behind it. -/
def twoLetters (address : Nat) : UInt8 :=
  if address = 8 then 0x41 else if address = 10 then 0x42 else 0

/-- The letter behind the end is copied as well. -/
theorem strncpy_standard_iff_twoLetters :
    strncpy twoLetters 16 8 3 ≠ Cells.copy twoLetters 16 [0x41, 0, 0] := by
  intro same
  have zeros := (@strncpy_standard_iff twoLetters 16 8 3 (by decide) (by decide) (by decide)).mp same
  exact absurd zeros (by decide)

end Ser2Ble.Proj
