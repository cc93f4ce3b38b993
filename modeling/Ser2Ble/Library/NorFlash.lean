import Ser2Ble.Library.Cells

/-!
# NOR flash

Erasing a sector sets its bytes to `0xFF`; programming a byte can only clear
bits.  A driver call is a list of operations, so that an interruption is a
prefix of the list.
-/

namespace Ser2Ble.Library.NorFlash

inductive Op where
  | eraseSector (address : Nat)
  | program (address : Nat) (byte : UInt8)

/-- One operation on a flash with sectors of `size` bytes. -/
def apply (size : Nat) (flash : Nat → UInt8) : Op → Nat → UInt8
  | .eraseSector address =>
      fun other => if other / size = address / size then 0xFF else flash other
  | .program address byte => Cells.store flash address (flash address &&& byte)

def run (size : Nat) : (Nat → UInt8) → List Op → Nat → UInt8
  | flash, [] => flash
  | flash, op :: rest => run size (apply size flash op) rest

theorem run_append (size : Nat) (flash : Nat → UInt8) (first second : List Op) :
    run size flash (first ++ second) = run size (run size flash first) second := by
  induction first generalizing flash with
  | nil => rfl
  | cons op rest ih => exact ih _

/-- Program consecutive bytes, first byte first. -/
def programBytes : Nat → List UInt8 → List Op
  | _, [] => []
  | address, byte :: rest => .program address byte :: programBytes (address + 1) rest

theorem programBytes_take (address : Nat) (bytes : List UInt8) (count : Nat) :
    (programBytes address bytes).take count = programBytes address (bytes.take count) := by
  induction bytes generalizing address count with
  | nil => rw [List.take_nil, programBytes, List.take_nil]
  | cons byte rest ih =>
      cases count with
      | zero => rfl
      | succ count => rw [programBytes, List.take_succ_cons, ih, List.take_succ_cons, programBytes]

/-- Programming erased cells stores the bytes. -/
theorem run_programBytes_erased (size : Nat) (flash : Nat → UInt8) (address : Nat)
    (bytes : List UInt8)
    (erased : ∀ other, address ≤ other → other < address + bytes.length → flash other = 0xFF) :
    run size flash (programBytes address bytes) = Cells.copy flash address bytes := by
  induction bytes generalizing flash address with
  | nil => rfl
  | cons byte rest ih =>
      rw [List.length_cons] at erased
      have blank : flash address &&& byte = byte := by
        rw [erased address (Nat.le_refl _) (by omega)]
        apply UInt8.toNat_inj.mp
        rw [UInt8.toNat_and]
        change 2 ^ 8 - 1 &&& byte.toNat = byte.toNat
        rw [Nat.and_comm, Nat.and_two_pow_sub_one_eq_mod, Nat.mod_eq_of_lt byte.toNat_lt]
      rw [programBytes, run, apply, blank, ih, Cells.copy]
      intro other first last
      rw [Cells.store_other _ _ (by omega)]
      exact erased other (by omega) (by omega)

/-- Programming leaves the cells outside the block alone. -/
theorem run_programBytes_outside (size : Nat) (flash : Nat → UInt8) {address other : Nat}
    (bytes : List UInt8) (outside : other < address ∨ address + bytes.length ≤ other) :
    run size flash (programBytes address bytes) other = flash other := by
  induction bytes generalizing flash address with
  | nil => rfl
  | cons byte rest ih =>
      rw [List.length_cons] at outside
      rw [programBytes, run, ih _ (by omega), apply, Cells.store_other _ _ (by omega)]

/-- Programming a block clears, in each cell, the bits that its byte does not have. -/
theorem run_programBytes_inside (size : Nat) (flash : Nat → UInt8) (address : Nat)
    {bytes : List UInt8} {offset : Nat} {byte : UInt8} (held : bytes[offset]? = some byte) :
    run size flash (programBytes address bytes) (address + offset) =
      flash (address + offset) &&& byte := by
  induction bytes generalizing flash address offset with
  | nil => cases held
  | cons first rest ih =>
      cases offset with
      | zero =>
          cases held
          rw [Nat.add_zero, programBytes, run,
            run_programBytes_outside _ _ _ (Or.inl (Nat.lt_succ_self address)), apply,
            Cells.store_same]
      | succ offset =>
          rw [programBytes, run, Nat.add_comm offset, ← Nat.add_assoc, ih _ _ held, apply,
            Cells.store_other _ _ (by omega)]

/-- Programming clears the bits that the new bytes do not have. -/
theorem window_programBytes (size : Nat) (flash : Nat → UInt8) (address : Nat)
    (bytes : List UInt8) :
    Cells.window (run size flash (programBytes address bytes)) address bytes.length =
      (Cells.window flash address bytes.length).zipWith (· &&& ·) bytes := by
  induction bytes generalizing flash address with
  | nil => rfl
  | cons byte rest ih =>
      rw [List.length_cons, Cells.window_cons, Cells.window_cons, programBytes, run, ih,
        run_programBytes_outside _ _ _ (Or.inl (Nat.lt_succ_self address)), apply,
        Cells.store_same, List.zipWith_cons_cons]
      have later : Cells.window (Cells.store flash address (flash address &&& byte)) (address + 1)
          rest.length = Cells.window flash (address + 1) rest.length :=
        Cells.window_congr fun other first _ => Cells.store_other flash _ (by omega)
      rw [later]

/--
After an erase and an interrupted programming, a window inside the sector reads
the bytes programmed so far, then `0xFF`.
-/
theorem window_erase_program {size address width : Nat} (flash : Nat → UInt8) {bytes : List UInt8}
    (inside : ∀ other, address ≤ other → other < address + width → other / size = address / size)
    (fits : bytes.length ≤ width) :
    Cells.window (run size flash (.eraseSector address :: programBytes address bytes)) address width =
      bytes ++ List.replicate (width - bytes.length) 0xFF := by
  have erased : ∀ other, address ≤ other → other < address + width →
      apply size flash (.eraseSector address) other = 0xFF :=
    fun other first last => if_pos (inside other first last)
  rw [run, run_programBytes_erased size _ address bytes
    fun other first last => erased other first (by omega)]
  obtain ⟨rest, rfl⟩ := Nat.exists_eq_add_of_le fits
  rw [Nat.add_sub_cancel_left, Cells.window_append, Cells.window_copy]
  congr 1
  apply List.eq_replicate_iff.mpr
  refine ⟨Cells.window_length _ _ _, fun byte member => ?_⟩
  obtain ⟨offset, bound, rfl⟩ := List.mem_map.mp member
  have within := List.mem_range.mp bound
  rw [Cells.copy_outside _ _ (Or.inr (Nat.le_add_right _ _))]
  exact erased _ (by omega) (by omega)

end Ser2Ble.Library.NorFlash
