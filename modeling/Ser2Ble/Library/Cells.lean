import Mathlib.Data.List.Basic

/-!
# Addressed cells

A memory is a function from addresses to values.  The lemmas say what a store
and a block copy change and, above all, what they leave alone.
-/

namespace Ser2Ble.Library.Cells

variable {Value : Type}

def store (cells : Nat → Value) (address : Nat) (value : Value) : Nat → Value :=
  fun other => if other = address then value else cells other

/-- Copy a block of values to consecutive cells, first value first. -/
def copy (cells : Nat → Value) : Nat → List Value → Nat → Value
  | _, [] => cells
  | address, value :: rest => copy (store cells address value) (address + 1) rest

/-- Read `count` consecutive cells. -/
def window (cells : Nat → Value) (address count : Nat) : List Value :=
  (List.range count).map fun offset => cells (address + offset)

@[simp] theorem store_same (cells : Nat → Value) (address : Nat) (value : Value) :
    store cells address value address = value :=
  if_pos rfl

@[simp] theorem store_other (cells : Nat → Value) {address other : Nat} (value : Value)
    (different : other ≠ address) : store cells address value other = cells other :=
  if_neg different

@[simp] theorem window_length (cells : Nat → Value) (address count : Nat) :
    (window cells address count).length = count := by
  rw [window, List.length_map, List.length_range]

@[simp] theorem window_zero (cells : Nat → Value) (address : Nat) :
    window cells address 0 = [] := rfl

theorem window_succ (cells : Nat → Value) (address count : Nat) :
    window cells address (count + 1) = window cells address count ++ [cells (address + count)] := by
  rw [window, List.range_succ, List.map_append, List.map_singleton, window]

theorem window_cons (cells : Nat → Value) (address count : Nat) :
    window cells address (count + 1) = cells address :: window cells (address + 1) count := by
  rw [window, List.range_succ_eq_map, List.map_cons, List.map_map, Nat.add_zero]
  refine congrArg (List.cons _) (List.map_congr_left fun offset _ => ?_)
  change cells (address + (offset + 1)) = cells (address + 1 + offset)
  rw [Nat.add_right_comm, Nat.add_assoc]

theorem window_append (cells : Nat → Value) (address first second : Nat) :
    window cells address (first + second) =
      window cells address first ++ window cells (address + first) second := by
  induction second with
  | zero => rw [Nat.add_zero, window_zero, List.append_nil]
  | succ second ih =>
      rw [← Nat.add_assoc, window_succ, window_succ, ih, List.append_assoc, Nat.add_assoc]

theorem window_congr {first second : Nat → Value} {address count : Nat}
    (agree : ∀ other, address ≤ other → other < address + count → first other = second other) :
    window first address count = window second address count := by
  refine List.map_congr_left fun offset member => ?_
  have bound := List.mem_range.mp member
  exact agree _ (Nat.le_add_right _ _) (Nat.add_lt_add_left bound _)

/-- A block copy leaves the cells outside the block alone. -/
theorem copy_outside (cells : Nat → Value) {address other : Nat} (values : List Value)
    (outside : other < address ∨ address + values.length ≤ other) :
    copy cells address values other = cells other := by
  induction values generalizing cells address with
  | nil => rfl
  | cons value rest ih =>
      rw [List.length_cons] at outside
      rw [copy, ih (store cells address value) (by omega)]
      exact store_other cells value (by omega)

/-- A block copy stores each value in its cell. -/
theorem copy_inside (cells : Nat → Value) (address : Nat) {values : List Value} {offset : Nat}
    {value : Value} (held : values[offset]? = some value) :
    copy cells address values (address + offset) = value := by
  induction values generalizing cells address offset with
  | nil => cases held
  | cons first rest ih =>
      cases offset with
      | zero =>
          cases held
          rw [Nat.add_zero, copy, copy_outside _ _ (Or.inl (Nat.lt_succ_self address)), store_same]
      | succ offset =>
          rw [copy, Nat.add_comm offset, ← Nat.add_assoc]
          exact ih _ _ held

theorem copy_append (cells : Nat → Value) (address : Nat) (first second : List Value) :
    copy cells address (first ++ second) =
      copy (copy cells address first) (address + first.length) second := by
  induction first generalizing cells address with
  | nil => rfl
  | cons value rest ih =>
      rw [List.cons_append, copy, copy, ih, List.length_cons]
      rw [Nat.add_right_comm, Nat.add_assoc]

/-- Reading a copied block back gives the block. -/
theorem window_copy (cells : Nat → Value) (address : Nat) (values : List Value) :
    window (copy cells address values) address values.length = values := by
  induction values generalizing cells address with
  | nil => rfl
  | cons value rest ih =>
      rw [List.length_cons, window_cons, copy, ih]
      rw [copy_outside _ rest (Or.inl (Nat.lt_succ_self address)), store_same]

end Ser2Ble.Library.Cells
