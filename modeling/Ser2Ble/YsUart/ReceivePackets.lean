import Ser2Ble.Library.Packets
import Ser2Ble.YsUart.ReceiveInvariant

/-!
# The receive side as a packetizer

The unread slots are the queue of a packetizer and the slot under assembly is
its rest.  While the backlog stays below 64 each operation on the raw pointers
is the packetizer's operation of the same name.
-/

namespace Ser2Ble.YsUart

open Library Proj

/-- The payload of the slot at `base`, whose length byte counts the header. -/
def packetAt (cells : Nat → UInt8) (base : Nat) : List UInt8 :=
  Cells.window cells (base + 2) (cells base - 2).toNat

theorem payload_length {length : UInt8} (lower : 2 ≤ length.toNat) :
    (length - 2).toNat = length.toNat - 2 :=
  UInt8.toNat_sub_of_le _ _ (UInt8.le_iff_toNat_le.mpr lower)

theorem packetAt_length {cells : Nat → UInt8} {base : Nat} (lower : 2 ≤ (cells base).toNat) :
    (packetAt cells base).length = (cells base).toNat - 2 := by
  rw [packetAt, Cells.window_length, payload_length lower]

/-- A packet depends on the 22 bytes of its slot only. -/
theorem packetAt_congr {before after : Nat → UInt8} {base : Nat}
    (lower : 2 ≤ (before base).toNat) (upper : (before base).toNat ≤ 22)
    (agree : ∀ offset < 22, after (base + offset) = before (base + offset)) :
    packetAt after base = packetAt before base := by
  have length : after base = before base := agree 0 (by decide)
  rw [packetAt, packetAt, length]
  apply Cells.window_congr
  intro address first last
  rw [payload_length lower] at last
  obtain ⟨offset, rfl⟩ := Nat.exists_eq_add_of_le first
  rw [Nat.add_assoc]
  exact agree (2 + offset) (by omega)

namespace Rx

/-- The payloads of the unread slots, oldest first. -/
def queued (rx : Rx) : List (List UInt8) :=
  Ring.contents (fun index => packetAt rx.cells (index * 22)) 64 rx.uartRxFifo.rptr rx.backlog

/-- The bytes received into the slot under assembly. -/
def assembling (rx : Rx) : List UInt8 :=
  packetAt rx.cells rx.wlen

def packets (rx : Rx) : Packets UInt8 :=
  ⟨rx.queued, rx.assembling⟩

theorem queued_length (rx : Rx) : rx.queued.length = rx.backlog :=
  Ring.contents_length _ _ _ _

/-- The address under which `Ring.contents` finds an unread packet. -/
theorem unreadSlot_eq (rx : Rx) (distance : Nat) :
    rx.unreadSlot distance = Ring.index 64 (Ring.ahead rx.uartRxFifo.rptr distance) * 22 :=
  MyFifo.slot_eq _

/-- The slot under assembly comes right after the unread slots. -/
theorem Sound.wlen_eq {rx : Rx} (sound : rx.Sound) : rx.wlen = rx.unreadSlot rx.backlog := by
  rw [sound.wlen]
  exact congrArg slot (Ring.ahead_backlog _ _).symm

theorem Sound.assembling_length {rx : Rx} (sound : rx.Sound) :
    rx.assembling.length = rx.length.toNat - 2 :=
  packetAt_length sound.lower

theorem Sound.assembling_eq_nil_iff {rx : Rx} (sound : rx.Sound) :
    rx.assembling = [] ↔ rx.length = 2 := by
  have lower := sound.lower
  rw [← List.length_eq_zero_iff, sound.assembling_length, ← UInt8.toNat_inj]
  change _ ↔ rx.length.toNat = 2
  omega

/-- A packet at the head of the queue is the one in the oldest slot. -/
theorem queued_cons {rx : Rx} (some : 0 < rx.backlog) :
    rx.queued = packetAt rx.cells (rx.unreadSlot 0) :: rx.pop.queued := by
  rw [unreadSlot_eq, Ring.ahead_zero]
  exact Ring.contents_pop _ _ some

theorem packets_pop {rx : Rx} (some : 0 < rx.backlog) : rx.pop.packets = rx.packets.pop := by
  rw [packets, packets, Packets.pop, queued_cons some]
  rfl

/-! ## Storing a byte -/

/-- The unread packets are unchanged when their slots are. -/
theorem Sound.packets_kept {before after : Rx} (sound : before.Sound) (room : before.backlog < 64)
    (kept : Preserved before after) {distance : Nat} (within : distance < before.backlog) :
    packetAt after.cells (Ring.index 64 (Ring.ahead before.uartRxFifo.rptr distance) * 22) =
      packetAt before.cells (Ring.index 64 (Ring.ahead before.uartRxFifo.rptr distance) * 22) := by
  have bounds := sound.committed distance within (not_aliased_of_room room within)
  rw [← unreadSlot_eq]
  exact packetAt_congr (by omega) bounds.2 fun offset bound => kept distance within offset bound

theorem Sound.storeByte_assembling {rx : Rx} (sound : rx.Sound) (byte : UInt8)
    (notFull : rx.length.toNat ≠ 22) :
    (rx.storeByte byte).assembling = rx.assembling ++ [byte] := by
  have lower := sound.lower
  have upper := sound.upper
  have position := sound.wptr
  have grown := sound.stored_length byte
  have stored : (rx.storeByte byte).cells (rx.wlen + 2 + (rx.length.toNat - 2)) = byte := by
    rw [show rx.wlen + 2 + (rx.length.toNat - 2) = rx.wptr by omega]
    exact storeByte_cells_wptr byte sound.apart
  have older : Cells.window (rx.storeByte byte).cells (rx.wlen + 2) (rx.length.toNat - 2) =
      Cells.window rx.cells (rx.wlen + 2) (rx.length.toNat - 2) := by
    apply Cells.window_congr
    intro address first last
    exact storeByte_cells_other byte (by omega) (by omega)
  have count : ((rx.storeByte byte).length - 2).toNat = rx.length.toNat - 2 + 1 := by
    rw [payload_length (by omega)]
    omega
  calc (rx.storeByte byte).assembling
      = Cells.window (rx.storeByte byte).cells (rx.wlen + 2)
          ((rx.storeByte byte).length - 2).toNat := rfl
    _ = Cells.window rx.cells (rx.wlen + 2) (rx.length.toNat - 2) ++ [byte] := by
          rw [count, Cells.window_succ, stored, older]
    _ = rx.assembling ++ [byte] := by
          rw [← payload_length lower]
          rfl

theorem Sound.storeByte_packets {rx : Rx} (sound : rx.Sound) (room : rx.backlog < 64)
    (byte : UInt8) (notFull : rx.length.toNat ≠ 22) :
    (rx.storeByte byte).packets = rx.packets.append byte := by
  have queue : (rx.storeByte byte).queued = rx.queued :=
    Ring.contents_congr fun _ within =>
      sound.packets_kept room (sound.preserved_storeByte room byte) within
  rw [packets, queue, sound.storeByte_assembling byte notFull, packets, Packets.append]

/-! ## Closing a packet -/

/-- The packet just committed is still in its slot. -/
theorem Sound.nextSlot_packetAt {rx : Rx} (sound : rx.Sound) (room : rx.backlog < 63) :
    packetAt rx.nextSlot.cells rx.wlen = rx.assembling := by
  have own : rx.cells (rx.unreadSlot rx.backlog) = rx.length := by
    rw [← sound.wlen_eq, Rx.length]
  rw [assembling, sound.wlen_eq]
  apply packetAt_congr
  · rw [own]
    exact sound.lower
  · rw [own]
    exact sound.upper
  · intro offset bound
    exact nextSlot_kept room (Nat.le_refl _) bound

theorem Sound.nextSlot_packets {rx : Rx} (sound : rx.Sound) (room : rx.backlog < 63) :
    rx.nextSlot.packets = rx.packets.close := by
  have below : rx.backlog < 64 := by omega
  have last := sound.nextSlot_packetAt room
  rw [sound.wlen, slot, MyFifo.slot_eq] at last
  have queue : rx.nextSlot.queued = rx.queued ++ [rx.assembling] := by
    rw [← last]
    exact Ring.contents_push 64 (Nat.lt_trans below (by decide)) fun _ within =>
      sound.packets_kept below (preserved_nextSlot room) within
  have empty : rx.nextSlot.assembling = [] := by
    have two : rx.nextSlot.cells rx.nextSlot.wlen = 2 := nextSlot_length rx
    rw [assembling, packetAt, two]
    rfl
  rw [packets, queue, empty, packets, Packets.close]

theorem closePacket_of_room {rx : Rx} (room : rx.backlog < 63) :
    rx.closePacket = Rx.nextSlot { rx with uartRxTick := 0 } :=
  if_pos (Nat.lt_succ_of_lt room)

theorem Sound.closePacket_packets {rx : Rx} (sound : Sound { rx with uartRxTick := 0 })
    (room : rx.backlog < 63) : rx.closePacket.packets = rx.packets.close := by
  rw [closePacket_of_room room]
  exact sound.nextSlot_packets room

theorem Sound.closePacket_packetAt {rx : Rx} (sound : Sound { rx with uartRxTick := 0 })
    (room : rx.backlog < 63) : packetAt rx.closePacket.cells rx.wlen = rx.assembling := by
  rw [closePacket_of_room room]
  exact sound.nextSlot_packetAt room

theorem Sound.receiveByte_packets {rx : Rx} (sound : rx.Sound) (byte : UInt8) (now : Nat)
    (notFull : rx.length.toNat ≠ 22) (below : rx.backlog < 64)
    (room : ¬ (rx.storeByte byte).length < 22 → rx.backlog < 63) :
    (rx.receiveByte byte now).packets = rx.packets.receive 20 byte := by
  have lower := sound.lower
  have upper := sound.upper
  have limit : rx.packets.current.length + 1 < 20 ↔ rx.length.toNat < 21 := by
    change rx.assembling.length + 1 < 20 ↔ _
    rw [sound.assembling_length]
    omega
  have stored := sound.storeByte_packets below byte notFull
  rw [Rx.receiveByte, Packets.receive]
  by_cases short : (rx.storeByte byte).length < 22
  · rw [if_pos short, if_pos (limit.mpr ((sound.stored_short_iff byte).mp short))]
    exact stored
  · have long : ¬ rx.length.toNat < 21 := fun less => short ((sound.stored_short_iff byte).mpr less)
    rw [if_neg short, if_neg (fun less => long (limit.mp less)), ← stored]
    exact (sound.complete byte (by omega)).closePacket_packets (room short)

theorem Sound.receiveByte_packetAt {rx : Rx} (sound : rx.Sound) (byte : UInt8) (now : Nat)
    (notFull : rx.length.toNat ≠ 22) (long : ¬ (rx.storeByte byte).length < 22)
    (room : rx.backlog < 63) :
    packetAt (rx.receiveByte byte now).cells rx.wlen = rx.assembling ++ [byte] := by
  have upper := sound.upper
  have last : ¬ rx.length.toNat < 21 := fun less => long ((sound.stored_short_iff byte).mpr less)
  have closed := (sound.complete byte (by omega)).closePacket_packetAt room
  rw [Rx.receiveByte, if_neg long]
  exact closed.trans (sound.storeByte_assembling byte notFull)

end Rx

end Ser2Ble.YsUart
