import Ser2Ble.Library.BoundedQueue
import Ser2Ble.Proj.Utility

/-!
# `my_fifo_push` and the queue it makes

A slot holds a record: two bytes of length, low byte first, and the data.  The
two counters run freely, so the slot of a record is used again after `num`
pushes and the counters wrap after 256.
-/

namespace Ser2Ble.Proj

open Library

variable {size num : Nat}

/-! ## The model -/

/-- `my_fifo_init`, on an array that may hold anything. -/
def myFifoInit (p : Nat → UInt8) : MyFifo size num :=
  ⟨0, 0, p⟩

/-- The offset of the slot to be filled, or `none` for the null pointer of a full FIFO. -/
def myFifoWptr (f : MyFifo size num) : Option Nat :=
  if f.backlog < num then some (MyFifo.slot size num f.wptr) else none

def myFifoNext (f : MyFifo size num) : MyFifo size num :=
  { f with wptr := f.wptr + 1 }

/-- `my_fifo_push` and what it returns; `n` is the unsigned number that the source compares with `size`. -/
def myFifoPush (f : MyFifo size num) (p : Nat → UInt8) (n : UInt32) : MyFifo size num × Int :=
  if num ≤ f.backlog then (f, -1)
  else if size ≤ n.toNat then (f, -1)
  else
    let pd := MyFifo.slot size num f.wptr
    let low := Cells.store f.p pd (n &&& 0xFF).toUInt8
    let high := Cells.store low (pd + 1) ((n >>> 8) &&& 0xFF).toUInt8
    ({ f with wptr := f.wptr + 1, p := Cells.copy high (pd + 2) (Cells.window p 0 n.toNat) }, 0)

inductive FifoCall where
  | push (p : Nat → UInt8) (n : UInt32)
  | get
  | pop

namespace MyFifo

/-- The record in the slot at offset `fp`. -/
def recordAt (cells : Nat → UInt8) (fp : Nat) : List UInt8 :=
  Cells.window cells (fp + 2) ((cells fp).toNat + 256 * (cells (fp + 1)).toNat)

/-- The records from the read counter to the write counter. -/
def records (f : MyFifo size num) : List (List UInt8) :=
  Ring.contents (fun index => recordAt f.p (index * size)) num f.rptr f.backlog

end MyFifo

/-- A caller pops what `my_fifo_get` has answered. -/
def FifoCall.step (f : MyFifo size num) : FifoCall → Option (MyFifo size num)
  | .push p n => some (myFifoPush f p n).1
  | .get => some f
  | .pop => if (myFifoGet f).isSome then some (myFifoPop f) else none

/-- What a call returns, with the record that a slot holds for its address. -/
def FifoCall.answer (f : MyFifo size num) : FifoCall → BoundedQueue.Answer (List UInt8)
  | .push p n => .pushed (decide ((myFifoPush f p n).2 = 0))
  | .get => .got ((myFifoGet f).map (MyFifo.recordAt f.p))
  | .pop => .popped

def FifoCall.toQueue : FifoCall → BoundedQueue.Call (List UInt8)
  | .push p n => .push (Cells.window p 0 n.toNat)
  | .get => .get
  | .pop => .pop

/-- The length and the data fit a slot, or are too long for the test of `my_fifo_push` as well. -/
def FifoCall.Fits (size : Nat) : FifoCall → Prop
  | .push _ n => n.toNat + 2 ≤ size ∨ size ≤ n.toNat
  | _ => True

abbrev FifoEdge (size num : Nat) := Edge (MyFifo size num) FifoCall

abbrev FifoRun (p : Nat → UInt8) : List (FifoEdge size num) → MyFifo size num → Prop :=
  Run FifoCall.step (myFifoInit p)

/-- The data of a push that returned 0. -/
def pushedData (edge : FifoEdge size num) : Option (List UInt8) :=
  match edge.event with
  | .push p n => if (myFifoPush edge.source p n).2 = 0 then some (Cells.window p 0 n.toNat) else none
  | _ => none

/-- The record at the address that `my_fifo_get` answered before a pop. -/
def poppedRecord (edge : FifoEdge size num) : Option (List UInt8) :=
  match edge.event with
  | .pop => (myFifoGet edge.source).map (MyFifo.recordAt edge.source.p)
  | _ => none

/-! ## Records -/

namespace MyFifo

/-- A record depends on the bytes of its slot only. -/
theorem recordAt_congr {first second : Nat → UInt8} {fp : Nat}
    (agree : ∀ other, fp ≤ other → other < fp + size → first other = second other)
    (short : (recordAt second fp).length + 2 ≤ size) : recordAt first fp = recordAt second fp := by
  rw [recordAt, Cells.window_length] at short
  rw [recordAt, agree fp (by omega) (by omega), agree (fp + 1) (by omega) (by omega)]
  refine Cells.window_congr fun other after before => agree other (by omega) (by omega)

theorem masked_byte (word : UInt32) : (word &&& 0xFF).toUInt8.toNat = word.toNat % 256 := by
  rw [UInt32.toNat_toUInt8, UInt32.toNat_and]
  change (word.toNat &&& (2 ^ 8 - 1)) % 2 ^ 8 = _
  rw [Nat.and_two_pow_sub_one_eq_mod, Nat.mod_mod]

/-- The two bytes in front of the data are their number. -/
theorem header_value {n : UInt32} (small : n.toNat < 65536) :
    (n &&& 0xFF).toUInt8.toNat + 256 * ((n >>> 8) &&& 0xFF).toUInt8.toNat = n.toNat := by
  have shifted : (n >>> 8).toNat = n.toNat / 256 := by
    rw [UInt32.toNat_shiftRight, Nat.shiftRight_eq_div_pow]
    rfl
  rw [masked_byte, masked_byte, shifted]
  omega

section Push

variable {f : MyFifo size num} {p : Nat → UInt8} {n : UInt32}

/-- A push that is taken copies the header and the data as one block. -/
theorem push_eq (room : f.backlog < num) (short : n.toNat < size) :
    myFifoPush f p n = ({ f with
      wptr := f.wptr + 1
      p := Cells.copy f.p (slot size num f.wptr) ((n &&& 0xFF).toUInt8 ::
        ((n >>> 8) &&& 0xFF).toUInt8 :: Cells.window p 0 n.toNat) }, 0) := by
  rw [myFifoPush, if_neg (Nat.not_le.mpr room), if_neg (Nat.not_le.mpr short)]
  rfl

theorem push_refused (refused : num ≤ f.backlog ∨ size ≤ n.toNat) : myFifoPush f p n = (f, -1) := by
  unfold myFifoPush
  rcases refused with full | long
  · exact if_pos full
  · rw [if_pos long]
    exact ite_self _

/-- A push is the test of `my_fifo_wptr`, a copy to the slot, and `my_fifo_next`. -/
theorem push_eq_wptr_next (short : n.toNat < size) :
    myFifoPush f p n = match myFifoWptr f with
      | none => (f, -1)
      | some pd => (myFifoNext { f with
          p := Cells.copy f.p pd ((n &&& 0xFF).toUInt8 :: ((n >>> 8) &&& 0xFF).toUInt8 ::
            Cells.window p 0 n.toNat) }, 0) := by
  unfold myFifoWptr
  by_cases room : f.backlog < num
  · rw [push_eq room short, if_pos room]
    rfl
  · rw [push_refused (Or.inl (Nat.not_lt.mp room)), if_neg room]

/-- The bytes of a push are the slot's as far as header and data reach. -/
theorem push_outside (room : f.backlog < num) (short : n.toNat < size) {other : Nat}
    (outside : other < slot size num f.wptr ∨ slot size num f.wptr + (n.toNat + 2) ≤ other) :
    (myFifoPush f p n).1.p other = f.p other := by
  rw [push_eq room short]
  exact Cells.copy_outside f.p _ (by simpa using outside)

theorem push_record (room : f.backlog < num) (short : n.toNat < size) (small : n.toNat < 65536) :
    recordAt (myFifoPush f p n).1.p (slot size num f.wptr) = Cells.window p 0 n.toNat := by
  rw [push_eq room short]
  dsimp only
  generalize slot size num f.wptr = pd
  have low := @Cells.copy_inside _ f.p pd ((n &&& 0xFF).toUInt8 ::
    ((n >>> 8) &&& 0xFF).toUInt8 :: Cells.window p 0 n.toNat) 0 _ rfl
  have high := @Cells.copy_inside _ f.p pd ((n &&& 0xFF).toUInt8 ::
    ((n >>> 8) &&& 0xFF).toUInt8 :: Cells.window p 0 n.toNat) 1 _ rfl
  rw [Nat.add_zero] at low
  rw [recordAt, low, high, header_value small]
  have data := Cells.window_copy (Cells.store (Cells.store f.p pd (n &&& 0xFF).toUInt8) (pd + 1)
    ((n >>> 8) &&& 0xFF).toUInt8) (pd + 2) (Cells.window p 0 n.toNat)
  rw [Cells.window_length] at data
  exact data

end Push

/-! ## The queue -/

/-- No more records than slots, and each inside its slot. -/
structure Sound (f : MyFifo size num) : Prop where
  backlog : f.backlog ≤ num
  inside : ∀ record ∈ f.records, record.length + 2 ≤ size

theorem records_length (f : MyFifo size num) : f.records.length = f.backlog :=
  Ring.contents_length _ _ _ _

/-- `my_fifo_push` takes data shorter than a slot. -/
def shorter (size : Nat) (record : List UInt8) : Bool :=
  decide (record.length < size)

theorem takes_eq (f : MyFifo size num) (p : Nat → UInt8) (n : UInt32) :
    BoundedQueue.takes num (shorter size) f.records (Cells.window p 0 n.toNat) =
      decide ((myFifoPush f p n).2 = 0) := by
  rw [BoundedQueue.takes, shorter, records_length, Cells.window_length]
  by_cases room : f.backlog < num
  · by_cases short : n.toNat < size
    · simp [room, short, push_eq room short]
    · simp [short, push_refused (Or.inr (Nat.not_lt.mp short))]
  · simp [room, push_refused (Or.inl (Nat.not_lt.mp room))]

section Ring

variable [RingSize num] {f : MyFifo size num} {p : Nat → UInt8} {n : UInt32}

/-- A push that fits its slot appends its data and keeps the other records. -/
theorem records_push (sound : f.Sound) (wraps : num < 256) (small : size ≤ 65536)
    (room : f.backlog < num) (fits : n.toNat + 2 ≤ size) :
    (myFifoPush f p n).1.records = f.records ++ [Cells.window p 0 n.toNat] := by
  have short : n.toNat < size := by omega
  have added := push_record (p := p) room short (by omega)
  have agree : ∀ distance < f.backlog,
      recordAt (myFifoPush f p n).1.p (Ring.index num (Ring.ahead f.rptr distance) * size) =
        recordAt f.p (Ring.index num (Ring.ahead f.rptr distance) * size) := by
    intro distance within
    have apart := slot_disjoint size (Ring.index_write_ne (RingSize.divides num) room within)
    have kept := sound.inside (recordAt f.p (Ring.index num (Ring.ahead f.rptr distance) * size))
      (List.mem_map.mpr ⟨distance, List.mem_range.mpr within, rfl⟩)
    rw [slot_eq] at apart
    refine @recordAt_congr size _ _ _ (fun other after before => ?_) kept
    exact push_outside room short (by omega)
  have free : Ring.backlog f.wptr f.rptr < 255 := Nat.lt_of_lt_of_le room (by omega)
  have pushed := @Ring.contents_push _ (fun index => recordAt f.p (index * size))
    (fun index => recordAt (myFifoPush f p n).1.p (index * size)) num f.wptr f.rptr free agree
  rw [← slot_eq, added] at pushed
  rw [push_eq room short] at pushed ⊢
  exact pushed

theorem records_pop (some : 0 < f.backlog) :
    f.records = recordAt f.p (slot size num f.rptr) :: (myFifoPop f).records := by
  rw [slot_eq]
  exact Ring.contents_pop _ num some

theorem get_answer (f : MyFifo size num) :
    (myFifoGet f).map (recordAt f.p) = f.records.head? := by
  by_cases some : 0 < f.backlog
  · rw [records_pop some, (get_eq_some_iff f _).mpr ⟨some, rfl⟩]
    rfl
  · have none : f.records = [] := by
      rw [← List.length_eq_zero_iff, records_length]
      omega
    rw [none, (get_eq_none_iff f).mpr (by omega)]
    rfl

/-- One call of the FIFO is one call of the queue, with the same answer. -/
theorem call_refines (sound : f.Sound) (wraps : num < 256) (small : size ≤ 65536)
    {call : FifoCall} (fits : call.Fits size) {target : MyFifo size num}
    (taken : call.step f = some target) : target.Sound ∧
      BoundedQueue.step num (shorter size) f.records call.toQueue = some target.records ∧
      call.answer f = BoundedQueue.answer num (shorter size) f.records call.toQueue := by
  cases call with
  | push p n =>
      cases Option.some.inj taken
      have answers := takes_eq f p n
      rw [FifoCall.toQueue, BoundedQueue.step, FifoCall.answer, BoundedQueue.answer, answers]
      rcases Nat.lt_or_ge f.backlog num with room | full
      · rcases fits with inside | long
        · have appended := records_push (p := p) sound wraps small room inside
          have zero : (myFifoPush f p n).2 = 0 := by rw [push_eq room (by omega)]
          refine ⟨⟨?_, ?_⟩, ?_, rfl⟩
          · rw [← records_length, appended, List.length_append, records_length]
            exact room
          · intro record member
            rw [appended] at member
            rcases List.mem_append.mp member with earlier | last
            · exact sound.inside record earlier
            · rw [List.mem_singleton.mp last, Cells.window_length]
              exact inside
          · simp [zero, appended]
        · rw [push_refused (Or.inr long)]
          exact ⟨sound, rfl, rfl⟩
      · rw [push_refused (Or.inl full)]
        exact ⟨sound, rfl, rfl⟩
  | get =>
      cases Option.some.inj taken
      exact ⟨sound, rfl, congrArg BoundedQueue.Answer.got (get_answer f)⟩
  | pop =>
      obtain ⟨answered, popped⟩ := Option.ite_none_right_eq_some.mp taken
      cases popped
      obtain ⟨fp, found⟩ := Option.isSome_iff_exists.mp answered
      have some := ((get_eq_some_iff f fp).mp found).1
      have oldest := records_pop some
      refine ⟨⟨?_, fun record member => sound.inside record ?_⟩, ?_, rfl⟩
      · rw [pop_backlog some]
        exact (Nat.sub_le _ _).trans sound.backlog
      · rw [oldest]
        exact List.mem_cons_of_mem _ member
      · rw [oldest]
        rfl

end Ring

theorem init_records (p : Nat → UInt8) : (myFifoInit p : MyFifo size num).records = [] := by
  rw [← List.length_eq_zero_iff, records_length]
  exact Ring.backlog_self 0

theorem init_sound (p : Nat → UInt8) : (myFifoInit p : MyFifo size num).Sound := by
  constructor
  · rw [← records_length, init_records]
    exact Nat.zero_le num
  · simp [init_records]

end MyFifo

section Runs

variable [RingSize num] {p : Nat → UInt8} {edges : List (FifoEdge size num)}
  {final : MyFifo size num}

/-- A call of the FIFO as a call of the queue. -/
def queueEdge (edge : FifoEdge size num) :
    Edge (List (List UInt8)) (BoundedQueue.Call (List UInt8)) :=
  ⟨edge.source.records, edge.event.toQueue, edge.target.records⟩

theorem fifo_run (run : FifoRun p edges final) (wraps : num < 256) (small : size ≤ 65536)
    (fits : ∀ edge ∈ edges, edge.event.Fits size) : final.Sound ∧
      Run (BoundedQueue.step num (MyFifo.shorter size)) [] (edges.map queueEdge) final.records ∧
      ∀ edge ∈ edges, edge.event.answer edge.source =
        BoundedQueue.answer num (MyFifo.shorter size) edge.source.records edge.event.toQueue := by
  induction run with
  | refl =>
      rw [MyFifo.init_records]
      exact ⟨MyFifo.init_sound p, .refl, fun _ member => absurd member List.not_mem_nil⟩
  | @tail edges source target call run taken ih =>
      obtain ⟨sound, queue, answers⟩ := ih fun edge member => fits edge (List.mem_append_left _ member)
      obtain ⟨still, stepped, answer⟩ :=
        MyFifo.call_refines sound wraps small (fits _ List.mem_concat_self) taken
      rw [List.map_append]
      exact ⟨still, queue.tail stepped, forall_mem_last answers answer⟩

/--
Whatever the array held and however often the counters wrap, pushes and guarded
pops make a FIFO of at most `num` records: what was popped is what was pushed,
in order, and every call answers as the queue does.
-/
theorem fifo_refines_queue (run : FifoRun p edges final) (wraps : num < 256)
    (small : size ≤ 65536) (fits : ∀ edge ∈ edges, edge.event.Fits size) :
    edges.filterMap poppedRecord ++ final.records = edges.filterMap pushedData ∧
      final.records.length ≤ num ∧
      ∀ edge ∈ edges, edge.event.answer edge.source =
        BoundedQueue.answer num (MyFifo.shorter size) edge.source.records edge.event.toQueue := by
  obtain ⟨_, queue, answers⟩ := fifo_run run wraps small fits
  obtain ⟨kept, bounded⟩ := BoundedQueue.conserved queue
  refine ⟨?_, bounded, answers⟩
  have popped : ∀ edge : FifoEdge size num,
      BoundedQueue.removed (queueEdge edge) = poppedRecord edge := by
    rintro ⟨source, call, target⟩
    cases call with
    | pop => exact (MyFifo.get_answer source).symm
    | _ => rfl
  have pushed : ∀ edge : FifoEdge size num,
      BoundedQueue.added num (MyFifo.shorter size) (queueEdge edge) = pushedData edge := by
    rintro ⟨source, call, target⟩
    cases call with
    | push p n =>
        simp only [BoundedQueue.added, queueEdge, FifoCall.toQueue, MyFifo.takes_eq, pushedData,
          decide_eq_true_eq]
    | _ => rfl
  rw [List.filterMap_map, List.filterMap_map] at kept
  rw [← List.filterMap_congr fun edge _ => popped edge, ← List.filterMap_congr fun edge _ => pushed edge]
  exact kept

end Runs

/-- Six bytes a slot and two slots: a third record is refused, then the first is popped. -/
def thirdRefused : List FifoCall :=
  [.push (fun _ => 1) 4, .push (fun _ => 2) 1, .push (fun _ => 3) 0, .push (fun _ => 4) 6, .get, .pop]

instance : RingSize 2 := ⟨1, by decide, rfl⟩

theorem fifo_refines_queue_thirdRefused :
    ∃ (edges : List (FifoEdge 6 2)) (final : MyFifo 6 2),
      edges.map Edge.event = thirdRefused ∧ FifoRun (fun _ => 0xFF) edges final ∧
      edges.filterMap pushedData = [[1, 1, 1, 1], [2]] ∧
      edges.filterMap poppedRecord ++ final.records = [[1, 1, 1, 1], [2]] := by
  obtain ⟨final, events, run⟩ := @enabled_run _ _ (@FifoCall.step 6 2) (myFifoInit fun _ => 0xFF)
    thirdRefused (by decide +kernel)
  have pushed : (trace (@FifoCall.step 6 2) (myFifoInit fun _ => 0xFF) thirdRefused).filterMap
      pushedData = [[1, 1, 1, 1], [2]] := by
    decide +kernel
  have each : ∀ call ∈ thirdRefused, call.Fits 6 := by
    simp [thirdRefused, FifoCall.Fits]
  refine ⟨_, final, events, run, pushed, ?_⟩
  rw [← pushed]
  refine (fifo_refines_queue run (by decide) (by decide) fun edge member => each edge.event ?_).1
  rw [← events]
  exact List.mem_map_of_mem member

/-! ## The last byte -/

/--
The test of `my_fifo_push` lets data of `size - 1` bytes pass, which with the
header are one byte more than a slot: a push that is taken stays in its slot
exactly when header and data fit.
-/
theorem push_inside_iff {f : MyFifo size num} {p : Nat → UInt8} {n : UInt32} (sized : 2 ≤ size)
    (taken : (myFifoPush f p n).2 = 0) :
    (∀ data other, other < MyFifo.slot size num f.wptr ∨ MyFifo.slot size num f.wptr + size ≤ other →
      (myFifoPush f data n).1.p other = f.p other) ↔ n.toNat + 2 ≤ size := by
  obtain ⟨room, short⟩ : f.backlog < num ∧ n.toNat < size := by
    by_contra refused
    rw [MyFifo.push_refused (by omega)] at taken
    cases taken
  constructor
  · intro kept
    by_contra long
    obtain ⟨rest, rfl⟩ := Nat.exists_eq_add_of_le' sized
    -- the last byte of the data lands behind the slot
    have last : n.toNat = rest + 1 := by omega
    have same := kept (fun _ => f.p (MyFifo.slot (rest + 2) num f.wptr + (rest + 2)) + 1) _
      (Or.inr (Nat.le_refl _))
    rw [MyFifo.push_eq room short, last] at same
    dsimp only at same
    rw [@Cells.copy_inside _ f.p _ _ _
      (f.p (MyFifo.slot (rest + 2) num f.wptr + (rest + 2)) + 1) (by simp [Cells.window])] at same
    simp at same
  · intro fits data other outside
    exact MyFifo.push_outside room short (by omega)

/-- Three bytes pass the test of a slot of four, and one of them lands behind it. -/
theorem push_inside_iff_longest :
    ¬ ∀ data other, other < 0 ∨ 4 ≤ other →
      (myFifoPush (myFifoInit fun _ => 0 : MyFifo 4 2) data 3).1.p other = 0 := by
  intro kept
  have fits := (@push_inside_iff 4 2 (myFifoInit fun _ => 0) (fun _ => 0) 3 (by decide)
    (by decide)).mp kept
  exact absurd fits (by decide)

end Ser2Ble.Proj
