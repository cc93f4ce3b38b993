import Mathlib.Data.List.Basic

/-!
# Records behind a length byte

A sequence of records, each preceded by the number of its bytes.  The decoder
succeeds only if the last record ends where the data end.
-/

namespace Ser2Ble.Library.LengthPrefixed

def encode : List (List UInt8) → List UInt8
  | [] => []
  | body :: rest => UInt8.ofNat body.length :: body ++ encode rest

def decode : List UInt8 → Option (List (List UInt8))
  | [] => some []
  | length :: data =>
      if length.toNat ≤ data.length then
        (decode (data.drop length.toNat)).map (List.cons (data.take length.toNat))
      else none
  termination_by data => data.length
  decreasing_by
    rw [List.length_drop, List.length_cons]
    omega

theorem decode_cons (length : UInt8) (data : List UInt8) :
    decode (length :: data) =
      if length.toNat ≤ data.length then
        (decode (data.drop length.toNat)).map (List.cons (data.take length.toNat))
      else none := by
  rw [decode]

/-- Records whose lengths fit a byte are read back. -/
theorem decode_encode {bodies : List (List UInt8)} (fits : ∀ body ∈ bodies, body.length < 256) :
    decode (encode bodies) = some bodies := by
  induction bodies with
  | nil => rw [encode, decode]
  | cons body rest ih =>
      obtain ⟨small, later⟩ := List.forall_mem_cons.mp fits
      have length : (UInt8.ofNat body.length).toNat = body.length := by
        rw [UInt8.toNat_ofNat']
        exact Nat.mod_eq_of_lt small
      have inside : body.length ≤ (body ++ encode rest).length := by
        rw [List.length_append]
        exact Nat.le_add_right _ _
      rw [encode, List.cons_append, decode_cons, length, if_pos inside,
        List.drop_left, List.take_left, ih later]
      rfl

end Ser2Ble.Library.LengthPrefixed
