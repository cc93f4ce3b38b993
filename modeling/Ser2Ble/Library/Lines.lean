import Mathlib.Data.List.Induction
import Mathlib.Data.Nat.Bitwise
import Mathlib.Logic.Function.Basic
import Ser2Ble.Library.Cells

/-!
# Lines driven through byte registers

A register holds eight lines.  Lines are driven by reading their register,
changing the bits of a mask and writing the register back, which must leave the
other lines alone; after a sequence of such changes each line is where the last
one that covers it left it.  A register may also hold four fields of two bits.
-/

namespace Ser2Ble.Library.Lines

open Cells

/-- The address of the register, and the number of the bit in it. -/
abbrev Line := Nat × Fin 8

/-- The bit of a line in its register. -/
def mask (bit : Fin 8) : UInt8 :=
  UInt8.ofNat (2 ^ bit.val)

/-- The level of every line. -/
def levels (registers : Nat → UInt8) (line : Line) : Bool :=
  (registers line.1).toNat.testBit line.2

/-- The bits of a mask are raised or lowered in a register. -/
structure Change where
  register : Nat
  mask : UInt8
  high : Bool
  deriving DecidableEq, Repr

/-- The change of one line. -/
def drive (line : Line) (high : Bool) : Change :=
  ⟨line.1, mask line.2, high⟩

namespace Change

def exec (registers : Nat → UInt8) (change : Change) : Nat → UInt8 :=
  store registers change.register
    (if change.high then registers change.register ||| change.mask
      else registers change.register &&& ~~~change.mask)

/-- Whether a change reaches a line. -/
def covers (change : Change) (line : Line) : Bool :=
  decide (line.1 = change.register) && change.mask.toNat.testBit line.2

end Change

def execAll (registers : Nat → UInt8) (changes : List Change) : Nat → UInt8 :=
  changes.foldl Change.exec registers

/-- What the last of the changes made of a line, if any of them reaches it. -/
def lastHigh (changes : List Change) (line : Line) : Option Bool :=
  (changes.filter fun change => change.covers line).getLast?.map Change.high

theorem mask_toNat (bit : Fin 8) : (mask bit).toNat = 2 ^ bit.val := by
  revert bit
  decide

theorem testBit_mask (bit other : Fin 8) :
    (mask bit).toNat.testBit other = decide (other = bit) := by
  rw [mask_toNat, Nat.testBit_two_pow]
  simp [Fin.ext_iff, eq_comm]

theorem testBit_complement (value : UInt8) (bit : Fin 8) :
    (~~~value).toNat.testBit bit = !value.toNat.testBit bit := by
  change (~~~value.toBitVec).toNat.testBit bit = !value.toBitVec.toNat.testBit bit
  rw [BitVec.testBit_toNat, BitVec.testBit_toNat, BitVec.getLsbD_not]
  simp [bit.isLt]

@[simp] theorem drive_high (line : Line) (high : Bool) : (drive line high).high = high := rfl

@[simp] theorem covers_drive (line other : Line) (high : Bool) :
    (drive line high).covers other = decide (other = line) := by
  rw [Change.covers, drive, testBit_mask]
  simp [Prod.ext_iff]

/-- The byte written back has the new level under the mask and the old ones elsewhere. -/
theorem testBit_driven (value mask : UInt8) (bit : Fin 8) (high : Bool) :
    (if high then value ||| mask else value &&& ~~~mask).toNat.testBit bit =
      if mask.toNat.testBit bit then high else value.toNat.testBit bit := by
  cases high with
  | false =>
      rw [if_neg Bool.false_ne_true, UInt8.toNat_and, Nat.testBit_and, testBit_complement]
      split <;> simp [*]
  | true =>
      rw [if_pos rfl, UInt8.toNat_or, Nat.testBit_or]
      split <;> simp [*]

/-- A change sets the lines that it covers and keeps all others. -/
theorem levels_exec (registers : Nat → UInt8) (change : Change) (line : Line) :
    levels (change.exec registers) line =
      if change.covers line then change.high else levels registers line := by
  rcases Classical.em (line.1 = change.register) with register | elsewhere
  · rw [levels, Change.exec, register, store_same, testBit_driven, Change.covers,
      decide_eq_true register, Bool.true_and, levels, register]
  · rw [levels, Change.exec, store_other _ _ elsewhere, Change.covers, decide_eq_false elsewhere,
      Bool.false_and, if_neg Bool.false_ne_true, levels]

theorem execAll_append (registers : Nat → UInt8) (first second : List Change) :
    execAll registers (first ++ second) = execAll (execAll registers first) second :=
  List.foldl_append

/-- After any changes each line is where the last one on it drove it, or where it was. -/
theorem levels_execAll (registers : Nat → UInt8) (changes : List Change) (line : Line) :
    levels (execAll registers changes) line =
      (lastHigh changes line).getD (levels registers line) := by
  induction changes using List.reverseRecOn with
  | nil => rfl
  | append_singleton changes change ih =>
      rw [execAll_append]
      change levels (change.exec (execAll registers changes)) line = _
      rw [levels_exec, lastHigh, List.filter_append]
      cases covered : change.covers line with
      | true =>
          rw [if_pos rfl, List.filter_singleton, covered, cond_true, List.getLast?_concat]
          rfl
      | false =>
          rw [if_neg Bool.false_ne_true, ih, List.filter_singleton, covered, cond_false,
            List.append_nil]
          rfl

@[simp] theorem lastHigh_nil (line : Line) : lastHigh [] line = none := rfl

/-- The later changes come first. -/
@[simp] theorem lastHigh_cons (change : Change) (rest : List Change) (line : Line) :
    lastHigh (change :: rest) line =
      (lastHigh rest line).or (if change.covers line then some change.high else none) := by
  rw [lastHigh, lastHigh, List.filter_cons]
  split
  · rw [List.getLast?_cons]
    cases (rest.filter fun change => change.covers line).getLast? <;> rfl
  · rw [Option.or_none]

/-- Lines that no change covers keep their levels. -/
theorem levels_other (registers : Nat → UInt8) {changes : List Change} {line : Line}
    (absent : ∀ change ∈ changes, change.covers line = false) :
    levels (execAll registers changes) line = levels registers line := by
  have silent : changes.filter (fun change => change.covers line) = [] :=
    List.filter_eq_nil_iff.mpr fun change member => by simp [absent change member]
  rw [levels_execAll, lastHigh, silent]
  rfl

/-- Every change drives one of the lines. -/
def DrivesOnly (lines : List Line) (changes : List Change) : Prop :=
  ∀ change ∈ changes, ∃ line ∈ lines, ∃ high, change = drive line high

namespace DrivesOnly

variable {lines more : List Line} {changes rest : List Change}

theorem nil : DrivesOnly lines [] :=
  nofun

theorem cons {line : Line} (high : Bool) (named : line ∈ lines) (only : DrivesOnly lines rest) :
    DrivesOnly lines (drive line high :: rest) :=
  List.forall_mem_cons.mpr ⟨⟨line, named, high, rfl⟩, only⟩

/-- All other lines keep their levels. -/
theorem levels_eq (only : DrivesOnly lines changes) (registers : Nat → UInt8) (line : Line)
    (absent : line ∉ lines) : levels (execAll registers changes) line = levels registers line := by
  refine levels_other registers fun change member => ?_
  obtain ⟨driven, named, high, rfl⟩ := only change member
  rw [covers_drive, decide_eq_false_iff_not]
  exact fun same => absent (same ▸ named)

end DrivesOnly

/-! ## Fields of two bits -/

/-- Where the field starts. -/
def shift (place : Fin 4) : UInt8 :=
  UInt8.ofNat (2 * place.val)

/-- A field of a register. -/
def field (value : UInt8) (place : Fin 4) : UInt8 :=
  (value >>> shift place) &&& 0x03

/-- A field is written by clearing it under a mask and adding the new bits. -/
def setField (value : UInt8) (place : Fin 4) (bits : Fin 4) : UInt8 :=
  (value &&& ~~~((0x03 : UInt8) <<< shift place)) ||| (UInt8.ofNat bits <<< shift place)

/-- The mask keeps the other fields. -/
theorem field_keep (place other : Fin 4) :
    field (~~~((0x03 : UInt8) <<< shift place)) other = if other = place then 0 else 0x03 := by
  revert place other
  decide

theorem field_bits (place other bits : Fin 4) :
    field (UInt8.ofNat bits <<< shift place) other =
      if other = place then UInt8.ofNat bits else 0 := by
  revert place other bits
  decide

theorem field_or (first second : UInt8) (place : Fin 4) :
    field (first ||| second) place = field first place ||| field second place := by
  rw [field, UInt8.shiftRight_or, ← UInt8.toBitVec_inj]
  exact BitVec.eq_of_getElem_eq fun bit inside => by simp [field, Bool.and_or_distrib_right]

theorem field_and (first second : UInt8) (place : Fin 4) :
    field (first &&& second) place = field first place &&& field second place := by
  rw [field, field, field, UInt8.shiftRight_and, UInt8.and_assoc, UInt8.and_assoc,
    ← UInt8.and_assoc 0x03, UInt8.and_comm 0x03, UInt8.and_assoc, UInt8.and_self]

/-- Writing a field keeps the other three. -/
theorem field_setField (value : UInt8) (place other bits : Fin 4) :
    field (setField value place bits) other =
      if other = place then UInt8.ofNat bits else field value other := by
  rw [setField, field_or, field_and, field_keep, field_bits]
  split
  · rw [UInt8.and_zero, UInt8.zero_or]
  · rw [UInt8.or_zero, field, UInt8.and_assoc, UInt8.and_self]

end Ser2Ble.Library.Lines
