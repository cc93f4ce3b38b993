import Mathlib.Data.List.Basic

/-!
# Chunks of a list

A list cut into chunks of a given length: the full chunks by their positions,
and what they leave over.  Appending one value completes a chunk or extends what
is left over.
-/

namespace Ser2Ble.Library.Chunks

variable {Value : Type} {limit : Nat}

/-- The full chunks, each of `limit` values. -/
def full (limit : Nat) (values : List Value) : List (List Value) :=
  (List.range (values.length / limit)).map fun index => (values.drop (index * limit)).take limit

/-- What the full chunks leave over. -/
def rest (limit : Nat) (values : List Value) : List Value :=
  values.drop (values.length / limit * limit)

/-- All chunks; the last one is shorter if there is a rest. -/
def all (limit : Nat) (values : List Value) : List (List Value) :=
  full limit values ++ if rest limit values = [] then [] else [rest limit values]

@[simp] theorem full_nil (limit : Nat) : full limit ([] : List Value) = [] := by
  simp [full]

@[simp] theorem rest_nil (limit : Nat) : rest limit ([] : List Value) = [] := by
  simp [rest]

theorem all_of_rest {values : List Value} (none : rest limit values = []) :
    all limit values = full limit values := by
  rw [all, if_pos none, List.append_nil]

theorem all_of_rest_ne {values : List Value} (some : rest limit values ≠ []) :
    all limit values = full limit values ++ [rest limit values] := by
  rw [all, if_neg some]

theorem rest_length (values : List Value) : (rest limit values).length = values.length % limit := by
  have split := Nat.div_add_mod' values.length limit
  rw [rest, List.length_drop]
  omega

/-- Appending a value leaves the full chunks alone. -/
theorem full_kept (values : List Value) (value : Value) :
    (List.range (values.length / limit)).map
        (fun index => ((values ++ [value]).drop (index * limit)).take limit) =
      full limit values := by
  refine List.map_congr_left fun index member => ?_
  have below := Nat.succ_le_of_lt (List.mem_range.mp member)
  have fits : index * limit + limit ≤ values.length := by
    rw [← Nat.succ_mul]
    exact Nat.le_trans (Nat.mul_le_mul_right limit below) (Nat.div_mul_le_self _ _)
  rw [List.drop_append_of_le_length (by omega), List.take_append_of_le_length]
  rw [List.length_drop]
  omega

theorem drop_full (values : List Value) (value : Value) :
    (values ++ [value]).drop (values.length / limit * limit) = rest limit values ++ [value] :=
  List.drop_append_of_le_length (Nat.div_mul_le_self _ _)

/-- One more value extends what is left over, while that stays short of a chunk. -/
theorem concat_short {values : List Value} {value : Value}
    (short : (rest limit values).length + 1 < limit) :
    full limit (values ++ [value]) = full limit values ∧
      rest limit (values ++ [value]) = rest limit values ++ [value] := by
  rw [rest_length] at short
  have same : (values ++ [value]).length / limit = values.length / limit := by
    have split := Nat.div_add_mod values.length limit
    rw [List.length_append, List.length_singleton]
    refine Nat.div_eq_of_lt_le ?_ ?_
    · rw [Nat.mul_comm]
      omega
    · rw [Nat.succ_mul, Nat.mul_comm]
      omega
  constructor
  · rw [full, same]
    exact full_kept values value
  · rw [rest, same]
    exact drop_full values value

/-- Otherwise it completes a chunk. -/
theorem concat_full {values : List Value} {value : Value} (positive : 0 < limit)
    (long : ¬ (rest limit values).length + 1 < limit) :
    full limit (values ++ [value]) = full limit values ++ [rest limit values ++ [value]] ∧
      rest limit (values ++ [value]) = [] := by
  have length := @rest_length _ limit values
  have bound := Nat.mod_lt values.length positive
  have next : (values ++ [value]).length = (values.length / limit + 1) * limit := by
    have split := Nat.div_add_mod' values.length limit
    rw [List.length_append, List.length_singleton, Nat.succ_mul]
    omega
  have count : (values ++ [value]).length / limit = values.length / limit + 1 := by
    rw [next, Nat.mul_div_cancel _ positive]
  constructor
  · have last : (rest limit values ++ [value]).take limit = rest limit values ++ [value] := by
      refine List.take_of_length_le ?_
      rw [List.length_append, List.length_singleton]
      omega
    rw [full, count, List.range_succ, List.map_append, full_kept, List.map_singleton, drop_full,
      last]
  · rw [rest, count, ← next, List.drop_length]

end Ser2Ble.Library.Chunks
