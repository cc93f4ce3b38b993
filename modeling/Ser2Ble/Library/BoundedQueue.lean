import Ser2Ble.Library.Run

/-!
# Bounded queues

A queue of at most `capacity` records, of which only those that fit are taken.
-/

namespace Ser2Ble.Library.BoundedQueue

variable {Record : Type}

inductive Call (Record : Type) where
  | push (record : Record)
  | get
  | pop

/-- What a call returns. -/
inductive Answer (Record : Type) where
  | pushed (taken : Bool)
  | got (oldest : Option Record)
  | popped

section Steps

variable (capacity : Nat) (fits : Record → Bool)

/-- A push is taken while there is room, if the record fits. -/
def takes (queue : List Record) (record : Record) : Bool :=
  decide (queue.length < capacity) && fits record

/-- Only a record that is there can be popped. -/
def step (queue : List Record) : Call Record → Option (List Record)
  | .push record => some (if takes capacity fits queue record then queue ++ [record] else queue)
  | .get => some queue
  | .pop => if queue = [] then none else some queue.tail

def answer (queue : List Record) : Call Record → Answer Record
  | .push record => .pushed (takes capacity fits queue record)
  | .get => .got queue.head?
  | .pop => .popped

/-- The record that a push adds. -/
def added (edge : Edge (List Record) (Call Record)) : Option Record :=
  match edge.event with
  | .push record => if takes capacity fits edge.source record then some record else none
  | _ => none

end Steps

/-- The record that a pop removes. -/
def removed (edge : Edge (List Record) (Call Record)) : Option Record :=
  match edge.event with
  | .pop => edge.source.head?
  | _ => none

/-- What was removed and what is left is what was added, in order, and never too much. -/
theorem conserved {capacity : Nat} {fits : Record → Bool}
    {edges : List (Edge (List Record) (Call Record))} {final : List Record}
    (run : Run (step capacity fits) [] edges final) :
    edges.filterMap removed ++ final = edges.filterMap (added capacity fits) ∧
      final.length ≤ capacity := by
  induction run with
  | refl => exact ⟨rfl, Nat.zero_le capacity⟩
  | @tail edges source target call run taken ih =>
      obtain ⟨kept, bounded⟩ := ih
      rw [filterMap_last, filterMap_last, ← kept]
      cases call with
      | push record =>
          cases Option.some.inj taken
          by_cases room : takes capacity fits source record
          · have less := (Bool.and_eq_true_iff.mp room).1
            rw [decide_eq_true_eq] at less
            simp [removed, added, room]
            omega
          · simp [removed, added, room, bounded]
      | get =>
          cases Option.some.inj taken
          simp [removed, added, bounded]
      | pop =>
          cases source with
          | nil => cases taken
          | cons oldest rest =>
              cases Option.some.inj taken
              rw [List.length_cons] at bounded
              simp only [removed, added, List.head?_cons, Option.toList_some, Option.toList_none,
                List.append_nil, List.append_assoc, List.singleton_append, List.tail_cons, true_and]
              omega

end Ser2Ble.Library.BoundedQueue
