import Ser2Ble.Library.Cells

/-!
# Copies between blocks that may overlap

A loop that copies cell by cell reads what it has already written when the
blocks overlap the wrong way.  `copy (window ..)` is the copy of the block as it
was before the loop.
-/

namespace Ser2Ble.Library.Cells

variable {Value : Type}

/-- Copy `count` cells, lowest first. -/
def up (cells : Nat → Value) (dest src : Nat) : Nat → Nat → Value
  | 0 => cells
  | count + 1 => up (store cells dest (cells src)) (dest + 1) (src + 1) count

/-- Copy `count` cells down from the addresses of the last ones, highest first. -/
def down (cells : Nat → Value) (lastDest lastSrc : Nat) : Nat → Nat → Value
  | 0 => cells
  | count + 1 => down (store cells lastDest (cells lastSrc)) (lastDest - 1) (lastSrc - 1) count

theorem window_store (cells : Nat → Value) {address start count : Nat} (value : Value)
    (outside : address < start ∨ start + count ≤ address) :
    window (store cells address value) start count = window cells start count :=
  window_congr fun other after before => store_other cells value (by omega)

theorem store_store (cells : Nat → Value) {first second : Nat} (one two : Value)
    (different : first ≠ second) :
    store (store cells first one) second two = store (store cells second two) first one := by
  funext other
  by_cases atFirst : other = first
  · rw [atFirst, store_other _ two different, store_same, store_same]
  · by_cases atSecond : other = second
    · rw [atSecond, store_same, store_other _ one (Ne.symm different), store_same]
    · rw [store_other _ two atSecond, store_other _ one atFirst, store_other _ one atFirst,
        store_other _ two atSecond]

/-- A store outside a block may come before or after the copy of the block. -/
theorem copy_store (cells : Nat → Value) {address start : Nat} (value : Value) (values : List Value)
    (outside : address < start ∨ start + values.length ≤ address) :
    copy (store cells address value) start values =
      store (copy cells start values) address value := by
  induction values generalizing cells start with
  | nil => rfl
  | cons first rest ih =>
      rw [List.length_cons] at outside
      rw [copy, copy, store_store cells value first (by omega), ih _ (by omega)]

/-- Upwards is right unless the destination starts inside the source. -/
theorem up_eq_copy (cells : Nat → Value) {dest src count : Nat}
    (apart : dest ≤ src ∨ src + count ≤ dest) :
    up cells dest src count = copy cells dest (window cells src count) := by
  induction count generalizing cells dest src with
  | zero => rfl
  | succ count ih =>
      rw [up, ih _ (by omega), window_cons, copy, window_store cells _ (by omega)]

/-- Downwards is right when the destination is not below the source. -/
theorem down_eq_copy (cells : Nat → Value) {dest src : Nat} (count : Nat) (above : src ≤ dest) :
    down cells (dest + (count - 1)) (src + (count - 1)) count =
      copy cells dest (window cells src count) := by
  induction count generalizing cells with
  | zero => rfl
  | succ count ih =>
      have shorter : down (store cells (dest + count) (cells (src + count))) (dest + count - 1)
          (src + count - 1) count =
          copy (store cells (dest + count) (cells (src + count))) dest (window cells src count) := by
        cases count with
        | zero => rfl
        | succ count =>
            have rest := ih (store cells (dest + (count + 1)) (cells (src + (count + 1))))
            rw [window_store cells _ (by omega)] at rest
            exact rest
      rw [Nat.add_sub_cancel, down, shorter, copy_store cells _ _ (by simp), window_succ,
        copy_append, window_length]
      rfl

theorem up_add (cells : Nat → Value) (dest src first second : Nat) :
    up cells dest src (first + second) =
      up (up cells dest src first) (dest + first) (src + first) second := by
  induction first generalizing cells dest src with
  | zero => rw [Nat.zero_add]; rfl
  | succ first ih =>
      rw [Nat.succ_add, up, ih, up, Nat.add_assoc, Nat.add_assoc, Nat.add_comm 1]

theorem up_below (cells : Nat → Value) {dest src other : Nat} (count : Nat) (below : other < dest) :
    up cells dest src count other = cells other := by
  induction count generalizing cells dest src with
  | zero => rfl
  | succ count ih =>
      rw [up, ih _ (Nat.lt_succ_of_lt below)]
      exact store_other cells _ (Nat.ne_of_lt below)

/-- A destination that starts inside the source gets the start of the source again. -/
theorem up_repeats (cells : Nat → Value) {src distance rest : Nat} (some : 0 < distance) :
    up cells (src + distance) src (distance + (rest + 1)) (src + distance + distance) = cells src := by
  obtain ⟨before, rfl⟩ := Nat.exists_eq_succ_of_ne_zero (Nat.ne_of_gt some)
  rw [up_add, up, up_below _ rest (Nat.lt_succ_self _), store_same,
    up_eq_copy cells (Or.inr (Nat.le_refl _)), window_cons, copy,
    copy_outside _ _ (Or.inl (Nat.lt_succ_self _)), store_same]

end Ser2Ble.Library.Cells
