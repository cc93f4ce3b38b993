import Ser2Ble.YsUart.Machine

/-!
# The receive side, one operation at a time

`Sound` ties the raw pointers to the counters: `wlen` is the slot of the write
counter, the length byte counts the header and the payload, and `wptr` is the
next payload cell.  The slot under assembly may still alias the oldest unread
slot, which happens exactly when 64 packets are queued; `Preserved` is the
statement that it does not.
-/

namespace Ser2Ble.YsUart.Rx

open Library Proj

/-- The address of the slot of a counter. -/
abbrev slot (counter : UInt8) : Nat :=
  MyFifo.slot 22 64 counter

/-- The address of the unread packet `distance` places behind the oldest. -/
def unreadSlot (rx : Rx) (distance : Nat) : Nat :=
  slot (Ring.ahead rx.uartRxFifo.rptr distance)

/-- The unread packet lies in the slot under assembly. -/
def Aliased (rx : Rx) (distance : Nat) : Prop :=
  Ring.index 64 (Ring.ahead rx.uartRxFifo.rptr distance) = Ring.index 64 rx.uartRxFifo.wptr

structure Sound (rx : Rx) : Prop where
  wlen : rx.wlen = slot rx.uartRxFifo.wptr
  backlog : rx.backlog ≤ 64
  lower : 2 ≤ rx.length.toNat
  upper : rx.length.toNat ≤ 22
  wptr : rx.wptr = rx.wlen + min rx.length.toNat 21
  pending : rx.uartRxTick ≠ 0 → 3 ≤ rx.length.toNat ∧ rx.length.toNat ≤ 21
  committed : ∀ distance < rx.backlog, ¬ rx.Aliased distance →
    3 ≤ (rx.cells (rx.unreadSlot distance)).toNat ∧ (rx.cells (rx.unreadSlot distance)).toNat ≤ 22

/-- No byte of an unread slot of `before` differs in `after`. -/
def Preserved (before after : Rx) : Prop :=
  ∀ distance < before.backlog, ∀ offset < 22,
    after.cells (before.unreadSlot distance + offset) =
      before.cells (before.unreadSlot distance + offset)

theorem Preserved.refl (rx : Rx) : Preserved rx rx :=
  fun _ _ _ _ => rfl

/-! ## Addresses -/

theorem slots_apart {first second : UInt8} (apart : Ring.index 64 first ≠ Ring.index 64 second) :
    slot first + 22 ≤ slot second ∨ slot second + 22 ≤ slot first :=
  MyFifo.slot_disjoint 22 apart

theorem Aliased.slot_eq {rx : Rx} {distance : Nat} (aliased : rx.Aliased distance) :
    rx.unreadSlot distance = slot rx.uartRxFifo.wptr :=
  MyFifo.slot_congr 22 aliased

theorem not_aliased_of_room {rx : Rx} (room : rx.backlog < 64) {distance : Nat}
    (within : distance < rx.backlog) : ¬ rx.Aliased distance :=
  Ring.index_write_ne (RingSize.divides 64) room within

/-- With 64 packets queued the slot under assembly is the oldest unread slot. -/
theorem aliased_of_full {rx : Rx} (full : rx.backlog = 64) : rx.Aliased 0 := by
  have turn := Ring.index_ahead_capacity (RingSize.divides 64) rx.uartRxFifo.rptr
  have write := Ring.ahead_backlog rx.uartRxFifo.wptr rx.uartRxFifo.rptr
  rw [show Ring.backlog rx.uartRxFifo.wptr rx.uartRxFifo.rptr = 64 from full] at write
  rw [write] at turn
  rw [Aliased, Ring.ahead_zero]
  exact turn.symm

/-- A byte of an unread slot is outside the slot under assembly. -/
theorem Sound.outside {rx : Rx} (sound : rx.Sound) {distance : Nat} (apart : ¬ rx.Aliased distance)
    {offset : Nat} (bound : offset < 22) :
    rx.unreadSlot distance + offset < rx.wlen ∨
      rx.wlen + 22 ≤ rx.unreadSlot distance + offset := by
  have ranges := slots_apart apart
  rw [sound.wlen, unreadSlot]
  omega

/-! ## Storing a byte -/

section StoreByte

variable (rx : Rx) (byte : UInt8)

@[simp] theorem storeByte_wlen : (rx.storeByte byte).wlen = rx.wlen := rfl

theorem storeByte_cells (address : Nat) :
    (rx.storeByte byte).cells address =
      Cells.store (Cells.store rx.cells rx.wptr byte) rx.wlen
        (Cells.store rx.cells rx.wptr byte rx.wlen + 1) address := rfl

variable {rx}

theorem storeByte_cells_other {address : Nat} (notLength : address ≠ rx.wlen)
    (notByte : address ≠ rx.wptr) : (rx.storeByte byte).cells address = rx.cells address := by
  rw [storeByte_cells, Cells.store_other _ _ notLength, Cells.store_other _ _ notByte]

theorem storeByte_cells_wptr (apart : rx.wptr ≠ rx.wlen) :
    (rx.storeByte byte).cells rx.wptr = byte := by
  rw [storeByte_cells, Cells.store_other _ _ apart, Cells.store_same]

theorem storeByte_length (apart : rx.wptr ≠ rx.wlen) :
    (rx.storeByte byte).length = rx.length + 1 := by
  rw [length, storeByte_wlen, storeByte_cells, Cells.store_same, Cells.store_other _ _ apart.symm]
  rfl

end StoreByte

theorem Sound.apart {rx : Rx} (sound : rx.Sound) : rx.wptr ≠ rx.wlen := by
  have position := sound.wptr
  have lower := sound.lower
  omega

/-- A sound pointer is inside the payload area of the slot under assembly. -/
theorem Sound.wptr_bounds {rx : Rx} (sound : rx.Sound) :
    rx.wlen + 2 ≤ rx.wptr ∧ rx.wptr ≤ rx.wlen + 21 := by
  have position := sound.wptr
  have lower := sound.lower
  omega

theorem Sound.stored_length {rx : Rx} (sound : rx.Sound) (byte : UInt8) :
    (rx.storeByte byte).length.toNat = rx.length.toNat + 1 := by
  have upper := sound.upper
  rw [storeByte_length byte sound.apart, UInt8.toNat_add, UInt8.toNat_one]
  omega

/-- The interrupt takes the first branch while the payload stays below 20 bytes. -/
theorem Sound.stored_short_iff {rx : Rx} (sound : rx.Sound) (byte : UInt8) :
    (rx.storeByte byte).length < 22 ↔ rx.length.toNat < 21 := by
  rw [UInt8.lt_iff_toNat_lt, sound.stored_length]
  change rx.length.toNat + 1 < 22 ↔ _
  omega

theorem Sound.stored_outside {rx : Rx} (sound : rx.Sound) (byte : UInt8) {address : Nat}
    (outside : address < rx.wlen ∨ rx.wlen + 22 ≤ address) :
    (rx.storeByte byte).cells address = rx.cells address := by
  have bounds := sound.wptr_bounds
  exact storeByte_cells_other byte (by omega) (by omega)

theorem Sound.stored_committed {rx : Rx} (sound : rx.Sound) (byte : UInt8) {distance : Nat}
    (apart : ¬ rx.Aliased distance) :
    (rx.storeByte byte).cells (rx.unreadSlot distance) = rx.cells (rx.unreadSlot distance) := by
  have outside := sound.outside apart (show 0 < 22 by decide)
  rw [Nat.add_zero] at outside
  exact sound.stored_outside byte outside

/-- Storing a byte that does not complete the packet, with the pointer advanced. -/
theorem Sound.extend {rx : Rx} (sound : rx.Sound) (byte : UInt8) (now : Nat)
    (short : rx.length.toNat < 21) :
    Sound { rx.storeByte byte with
      wptr := rx.wptr + 1, uartRxTick := clockTime now ||| 1 } := by
  have grown := sound.stored_length byte
  have position := sound.wptr
  have lower := sound.lower
  refine ⟨sound.wlen, sound.backlog, ?_, ?_, ?_, fun _ => ?_, fun distance within apart => ?_⟩
  · change 2 ≤ (rx.storeByte byte).length.toNat
    omega
  · change (rx.storeByte byte).length.toNat ≤ 22
    omega
  · change rx.wptr + 1 = rx.wlen + min (rx.storeByte byte).length.toNat 21
    omega
  · change 3 ≤ (rx.storeByte byte).length.toNat ∧ (rx.storeByte byte).length.toNat ≤ 21
    omega
  · change 3 ≤ ((rx.storeByte byte).cells (rx.unreadSlot distance)).toNat ∧
      ((rx.storeByte byte).cells (rx.unreadSlot distance)).toNat ≤ 22
    rw [sound.stored_committed byte apart]
    exact sound.committed distance within apart

/-- Storing the byte that completes the packet, before the packet is closed. -/
theorem Sound.complete {rx : Rx} (sound : rx.Sound) (byte : UInt8)
    (last : rx.length.toNat = 21) :
    Sound { rx.storeByte byte with uartRxTick := 0 } := by
  have grown := sound.stored_length byte
  have position := sound.wptr
  refine ⟨sound.wlen, sound.backlog, ?_, ?_, ?_, fun armed => absurd rfl armed,
    fun distance within apart => ?_⟩
  · change 2 ≤ (rx.storeByte byte).length.toNat
    omega
  · change (rx.storeByte byte).length.toNat ≤ 22
    omega
  · change rx.wptr = rx.wlen + min (rx.storeByte byte).length.toNat 21
    omega
  · change 3 ≤ ((rx.storeByte byte).cells (rx.unreadSlot distance)).toNat ∧
      ((rx.storeByte byte).cells (rx.unreadSlot distance)).toNat ≤ 22
    rw [sound.stored_committed byte apart]
    exact sound.committed distance within apart

/-! ## Moving on to the next slot -/

section NextSlot

variable (rx : Rx)

@[simp] theorem nextSlot_write : rx.nextSlot.uartRxFifo.wptr = rx.uartRxFifo.wptr + 1 := rfl
@[simp] theorem nextSlot_read : rx.nextSlot.uartRxFifo.rptr = rx.uartRxFifo.rptr := rfl
@[simp] theorem nextSlot_unreadSlot (distance : Nat) :
    rx.nextSlot.unreadSlot distance = rx.unreadSlot distance := rfl

theorem nextSlot_cells :
    rx.nextSlot.cells = Cells.store rx.cells (slot (rx.uartRxFifo.wptr + 1)) 2 := rfl

@[simp] theorem nextSlot_length : rx.nextSlot.length = 2 :=
  Cells.store_same _ _ _

variable {rx}

theorem nextSlot_backlog (room : rx.backlog < 64) : rx.nextSlot.backlog = rx.backlog + 1 :=
  Ring.backlog_write (Nat.lt_of_lt_of_le room (by decide))

/-- The length bytes of the unread slots that are not taken over are unchanged. -/
theorem nextSlot_cells_unread {distance : Nat} (apart : ¬ rx.nextSlot.Aliased distance) :
    rx.nextSlot.cells (rx.unreadSlot distance) = rx.cells (rx.unreadSlot distance) := by
  rw [nextSlot_cells]
  exact Cells.store_other _ _ (MyFifo.slot_ne (by decide) apart)

end NextSlot

/-- Committing a packet of at least one byte. -/
theorem Sound.nextSlot {rx : Rx} (sound : rx.Sound) (idle : rx.uartRxTick = 0)
    (filled : 3 ≤ rx.length.toNat) (room : rx.backlog < 64) : rx.nextSlot.Sound := by
  have two : rx.nextSlot.length.toNat = 2 := by rw [nextSlot_length]; rfl
  refine ⟨rfl, ?_, ?_, ?_, ?_, fun armed => absurd idle armed, fun distance within apart => ?_⟩
  · rw [nextSlot_backlog room]
    exact room
  · rw [two]
  · rw [two]
    decide
  · rw [two]
    rfl
  · rw [nextSlot_unreadSlot, nextSlot_cells_unread apart]
    by_cases own : rx.Aliased distance
    · -- the packet just committed
      rw [own.slot_eq, ← sound.wlen]
      exact ⟨filled, sound.upper⟩
    · rw [nextSlot_backlog room] at within
      have older : distance ≠ rx.backlog := by
        intro last
        refine own ?_
        rw [Aliased, last]
        exact congrArg _ (Ring.ahead_backlog _ _)
      exact sound.committed distance (by omega) own

/-- Closing a packet keeps the pointers sound, whether or not the FIFO has room. -/
theorem Sound.closePacket {rx : Rx} (sound : Sound { rx with uartRxTick := 0 })
    (filled : 3 ≤ rx.length.toNat) : rx.closePacket.Sound := by
  unfold Rx.closePacket
  split
  · next room => exact sound.nextSlot rfl filled room
  · exact sound

theorem Sound.receiveByte {rx : Rx} (sound : rx.Sound) (byte : UInt8) (now : Nat)
    (notFull : rx.length.toNat ≠ 22) : (rx.receiveByte byte now).Sound := by
  have upper := sound.upper
  unfold Rx.receiveByte
  by_cases short : rx.length.toNat < 21
  · rw [if_pos ((sound.stored_short_iff byte).mpr short)]
    exact sound.extend byte now short
  · rw [if_neg (fun below => short ((sound.stored_short_iff byte).mp below))]
    have filled : 3 ≤ (rx.storeByte byte).length.toNat := by
      rw [sound.stored_length]
      omega
    exact (sound.complete byte (by omega)).closePacket filled

/-- Dropping the pending tick. -/
theorem Sound.disarm {rx : Rx} (sound : rx.Sound) : Sound { rx with uartRxTick := 0 } :=
  ⟨sound.wlen, sound.backlog, sound.lower, sound.upper, sound.wptr,
    fun armed => absurd rfl armed, sound.committed⟩

theorem idleExpired_armed {rx : Rx} {now : Nat} (expired : rx.idleExpired now = true) :
    rx.uartRxTick ≠ 0 := by
  rw [idleExpired, Bool.and_eq_true, decide_eq_true_iff] at expired
  exact expired.1

theorem Sound.idleFlush {rx : Rx} (sound : rx.Sound) (now : Nat) : (rx.idleFlush now).Sound := by
  unfold Rx.idleFlush
  split
  · next expired => exact sound.disarm.closePacket (sound.pending (idleExpired_armed expired)).1
  · exact sound

theorem unreadSlot_pop (rx : Rx) (distance : Nat) :
    rx.pop.unreadSlot distance = rx.unreadSlot (distance + 1) := by
  rw [unreadSlot, unreadSlot, Ring.ahead_succ]
  rfl

theorem backlog_pop {rx : Rx} (some : 0 < rx.backlog) : rx.pop.backlog = rx.backlog - 1 :=
  MyFifo.pop_backlog some

theorem Sound.pop {rx : Rx} (sound : rx.Sound) (some : 0 < rx.backlog) : rx.pop.Sound := by
  refine ⟨sound.wlen, ?_, sound.lower, sound.upper, sound.wptr, sound.pending,
    fun distance within apart => ?_⟩
  · rw [backlog_pop some]
    exact (Nat.sub_le _ _).trans sound.backlog
  · rw [backlog_pop some] at within
    have apartBefore : ¬ rx.Aliased (distance + 1) := by
      rw [Aliased, Ring.ahead_succ]
      exact apart
    rw [unreadSlot_pop]
    exact sound.committed (distance + 1) (by omega) apartBefore

theorem Sound.retime {rx : Rx} (sound : rx.Sound) (idle : UInt32) :
    Sound { rx with uartRxIdle := idle } :=
  ⟨sound.wlen, sound.backlog, sound.lower, sound.upper, sound.wptr, sound.pending, sound.committed⟩

/-! ## What the unread slots keep -/

theorem Sound.preserved_storeByte {rx : Rx} (sound : rx.Sound) (room : rx.backlog < 64)
    (byte : UInt8) : Preserved rx (rx.storeByte byte) :=
  fun _ within _ bound =>
    sound.stored_outside byte (sound.outside (not_aliased_of_room room within) bound)

/--
Below 63 queued packets the next slot is neither one of the unread slots nor
the slot under assembly, which is `backlog` places behind the oldest.
-/
theorem nextSlot_kept {rx : Rx} (room : rx.backlog < 63) {distance : Nat}
    (within : distance ≤ rx.backlog) {offset : Nat} (bound : offset < 22) :
    rx.nextSlot.cells (rx.unreadSlot distance + offset) =
      rx.cells (rx.unreadSlot distance + offset) := by
  have after : rx.nextSlot.backlog = rx.backlog + 1 := nextSlot_backlog (by omega)
  have apart : ¬ rx.nextSlot.Aliased distance :=
    not_aliased_of_room (by omega) (by omega)
  have ranges := slots_apart apart
  rw [nextSlot_write, nextSlot_read] at ranges
  rw [nextSlot_cells, unreadSlot]
  exact Cells.store_other _ _ (by omega)

theorem preserved_nextSlot {rx : Rx} (room : rx.backlog < 63) : Preserved rx rx.nextSlot :=
  fun _ within _ bound => nextSlot_kept room (Nat.le_of_lt within) bound

theorem preserved_closePacket {rx : Rx} (room : rx.backlog < 63) : Preserved rx rx.closePacket := by
  unfold Rx.closePacket
  split
  · exact @preserved_nextSlot { rx with uartRxTick := 0 } room
  · exact Preserved.refl rx

end Ser2Ble.YsUart.Rx
