import Mathlib.Data.List.Basic
import Mathlib.Data.Nat.ModEq

/-!
# Rings addressed by free-running 8-bit counters

The write and read counters are never reduced; a slot is selected by the
counter modulo the capacity, and the backlog is the wrapped difference of the
counters.  When the capacity divides 256 the wrap of the counters is invisible.
-/

namespace Ser2Ble.Library.Ring

variable {Value : Type}

def backlog (write read : UInt8) : Nat :=
  (write - read).toNat

/-- The counter `distance` places after `read`. -/
def ahead (read : UInt8) (distance : Nat) : UInt8 :=
  read + UInt8.ofNat distance

def index (capacity : Nat) (counter : UInt8) : Nat :=
  counter.toNat % capacity

/-- The values in the `count` slots from the read counter on, oldest first. -/
def contents (slot : Nat → Value) (capacity : Nat) (read : UInt8) (count : Nat) : List Value :=
  (List.range count).map fun distance => slot (index capacity (ahead read distance))

/-! ## Counters -/

theorem backlog_eq (write read : UInt8) :
    backlog write read = (256 + write.toNat - read.toNat) % 256 := by
  have small := read.toNat_lt
  rw [backlog, UInt8.toNat_sub]
  omega

@[simp] theorem backlog_self (counter : UInt8) : backlog counter counter = 0 := by
  rw [backlog, UInt8.sub_self]
  rfl

theorem backlog_eq_zero_iff (write read : UInt8) : backlog write read = 0 ↔ read = write := by
  have writeBound := write.toNat_lt
  have readBound := read.toNat_lt
  rw [backlog_eq, ← UInt8.toNat_inj]
  omega

theorem backlog_write {write read : UInt8} (room : backlog write read < 255) :
    backlog (write + 1) read = backlog write read + 1 := by
  have writeBound := write.toNat_lt
  have readBound := read.toNat_lt
  rw [backlog_eq] at room
  rw [backlog_eq, backlog_eq, UInt8.toNat_add, UInt8.toNat_one]
  omega

theorem backlog_read {write read : UInt8} (some : 0 < backlog write read) :
    backlog write (read + 1) = backlog write read - 1 := by
  have writeBound := write.toNat_lt
  have readBound := read.toNat_lt
  rw [backlog_eq] at some
  rw [backlog_eq, backlog_eq, UInt8.toNat_add, UInt8.toNat_one]
  omega

@[simp] theorem ahead_zero (read : UInt8) : ahead read 0 = read := by
  rw [ahead]
  exact UInt8.add_zero read

theorem ahead_succ (read : UInt8) (distance : Nat) :
    ahead read (distance + 1) = ahead (read + 1) distance := by
  rw [ahead, ahead, UInt8.ofNat_add, UInt8.add_assoc, UInt8.add_comm (UInt8.ofNat distance)]
  rfl

/-- The write counter is the read counter advanced by the backlog. -/
@[simp] theorem ahead_backlog (write read : UInt8) : ahead read (backlog write read) = write := by
  rw [ahead, backlog, UInt8.ofNat_toNat, UInt8.add_comm, UInt8.sub_add_cancel]

/-! ## Slots -/

theorem index_ahead {capacity : Nat} (divides : capacity ∣ 256) (read : UInt8) (distance : Nat) :
    index capacity (ahead read distance) = (read.toNat + distance) % capacity := by
  rw [index, ahead, UInt8.toNat_add, UInt8.toNat_ofNat', Nat.add_mod_mod,
    Nat.mod_mod_of_dvd _ divides]

/-- Fewer than `capacity` consecutive counters select different slots. -/
theorem index_ahead_injective {capacity : Nat} (divides : capacity ∣ 256) (read : UInt8)
    {first second : Nat} (firstBound : first < capacity) (secondBound : second < capacity)
    (same : index capacity (ahead read first) = index capacity (ahead read second)) :
    first = second := by
  rw [index_ahead divides, index_ahead divides] at same
  have congruent : first ≡ second [MOD capacity] := Nat.ModEq.add_left_cancel' read.toNat same
  exact congruent.eq_of_lt_of_lt firstBound secondBound

theorem index_ahead_capacity {capacity : Nat} (divides : capacity ∣ 256) (read : UInt8) :
    index capacity (ahead read capacity) = index capacity read := by
  rw [index_ahead divides, Nat.add_mod_right, index]

/-- The slot at the write counter is not the slot of anything in the backlog, below capacity. -/
theorem index_write_ne {capacity : Nat} (divides : capacity ∣ 256) {write read : UInt8}
    (room : backlog write read < capacity) {distance : Nat} (within : distance < backlog write read) :
    index capacity (ahead read distance) ≠ index capacity write := by
  intro same
  have equal := index_ahead_injective divides read (within.trans room) room
    (same.trans (by rw [ahead_backlog]))
  exact Nat.ne_of_lt within equal

/-- The slot at the write counter is the one just given up when the backlog is one short of full. -/
theorem index_write_eq_before_iff {capacity : Nat} (divides : capacity ∣ 256) (write read : UInt8) :
    index capacity write = index capacity (read - 1) ↔ capacity ∣ backlog write read + 1 := by
  have turn : write = ahead (read - 1) (backlog write read + 1) := by
    rw [ahead_succ, UInt8.sub_add_cancel, ahead_backlog]
  calc index capacity write = index capacity (read - 1)
      ↔ (read - 1).toNat + (backlog write read + 1) ≡ (read - 1).toNat [MOD capacity] := by
          rw [Nat.ModEq, ← index_ahead divides, ← turn, index, index]
    _ ↔ capacity ∣ backlog write read + 1 := Nat.add_modEq_left_iff

/-! ## Contents -/

@[simp] theorem contents_length (slot : Nat → Value) (capacity : Nat) (read : UInt8) (count : Nat) :
    (contents slot capacity read count).length = count := by
  rw [contents, List.length_map, List.length_range]

theorem contents_succ (slot : Nat → Value) (capacity : Nat) (read : UInt8) (count : Nat) :
    contents slot capacity read (count + 1) =
      contents slot capacity read count ++ [slot (index capacity (ahead read count))] := by
  rw [contents, List.range_succ, List.map_append, List.map_singleton, contents]

theorem contents_cons (slot : Nat → Value) (capacity : Nat) (read : UInt8) (count : Nat) :
    contents slot capacity read (count + 1) =
      slot (index capacity read) :: contents slot capacity (read + 1) count := by
  rw [contents, List.range_succ_eq_map, List.map_cons, List.map_map, ahead_zero]
  refine congrArg (List.cons _) (List.map_congr_left fun distance _ => ?_)
  change slot (index capacity (ahead read (distance + 1))) = _
  rw [ahead_succ]

theorem contents_congr {first second : Nat → Value} {capacity : Nat} {read : UInt8} {count : Nat}
    (agree : ∀ distance < count, first (index capacity (ahead read distance)) =
      second (index capacity (ahead read distance))) :
    contents first capacity read count = contents second capacity read count :=
  List.map_congr_left fun distance member => agree distance (List.mem_range.mp member)

/-- Advancing the write counter appends the slot it leaves behind. -/
theorem contents_push {before after : Nat → Value} (capacity : Nat) {write read : UInt8}
    (room : backlog write read < 255)
    (agree : ∀ distance < backlog write read, after (index capacity (ahead read distance)) =
      before (index capacity (ahead read distance))) :
    contents after capacity read (backlog (write + 1) read) =
      contents before capacity read (backlog write read) ++ [after (index capacity write)] := by
  rw [backlog_write room, contents_succ, ahead_backlog, contents_congr agree]

/-- Advancing the read counter drops the oldest slot. -/
theorem contents_pop (slot : Nat → Value) (capacity : Nat) {write read : UInt8}
    (some : 0 < backlog write read) :
    contents slot capacity read (backlog write read) =
      slot (index capacity read) ::
        contents slot capacity (read + 1) (backlog write (read + 1)) := by
  obtain ⟨rest, count⟩ := Nat.exists_eq_add_of_lt some
  rw [backlog_read some, count, Nat.zero_add, contents_cons, Nat.add_sub_cancel]

end Ser2Ble.Library.Ring
