import Ser2Ble.YsUart.Machine

/-!
# The transmit side, one operation at a time

A slot of `uart_tx_fifo` holds a frame: the length as a 32-bit little-endian
word and the payload, as the DMA reads them.  `ys_uart_send` either refuses and
changes nothing, or appends one frame of at most 20 payload bytes.
-/

namespace Ser2Ble.YsUart

open Library Proj App

def frame (payload : List UInt8) : List UInt8 :=
  [UInt8.ofNat payload.length, 0, 0, 0] ++ payload

/-- What the DMA reads from `base` on: the header and as many bytes as it says. -/
def frameAt (cells : Nat → UInt8) (base : Nat) : List UInt8 :=
  Cells.window cells base (4 + loadU32 cells base)

theorem frame_length (payload : List UInt8) : (frame payload).length = 4 + payload.length := by
  rw [frame, List.length_append]
  rfl

theorem loadU32_congr {before after : Nat → UInt8} {base : Nat}
    (agree : ∀ offset < 24, after (base + offset) = before (base + offset)) :
    loadU32 after base = loadU32 before base := by
  have first := agree 0 (by decide)
  rw [Nat.add_zero] at first
  rw [loadU32, loadU32, first, agree 1 (by decide), agree 2 (by decide), agree 3 (by decide)]

/-- A frame of at most 20 payload bytes depends on the 24 bytes of its slot only. -/
theorem frameAt_congr {before after : Nat → UInt8} {base : Nat}
    (short : loadU32 before base ≤ 20)
    (agree : ∀ offset < 24, after (base + offset) = before (base + offset)) :
    frameAt after base = frameAt before base := by
  rw [frameAt, frameAt, loadU32_congr agree]
  apply Cells.window_congr
  intro address first last
  obtain ⟨offset, rfl⟩ := Nat.exists_eq_add_of_le first
  exact agree offset (by omega)

/-- A frame copied to `base` is what the DMA reads there. -/
theorem loadU32_copy_frame (cells : Nat → UInt8) (base : Nat) {payload : List UInt8}
    (short : payload.length < 256) :
    loadU32 (Cells.copy cells base (frame payload)) base = payload.length := by
  have header : ∀ offset < 4, Cells.copy cells base (frame payload) (base + offset) =
      Cells.copy cells base [UInt8.ofNat payload.length, 0, 0, 0] (base + offset) := by
    intro offset bound
    rw [frame, Cells.copy_append]
    exact Cells.copy_outside _ _ (Or.inl (by
      rw [show [UInt8.ofNat payload.length, 0, 0, 0].length = 4 from rfl]
      omega))
  have length := header 0 (by decide)
  rw [Nat.add_zero] at length
  rw [loadU32, length, header 1 (by decide), header 2 (by decide), header 3 (by decide)]
  simp only [Cells.copy, Cells.store, Nat.add_assoc]
  have small : payload.length % 256 = payload.length := Nat.mod_eq_of_lt short
  simp [small]

theorem frameAt_copy_frame (cells : Nat → UInt8) (base : Nat) {payload : List UInt8}
    (short : payload.length < 256) :
    frameAt (Cells.copy cells base (frame payload)) base = frame payload := by
  rw [frameAt, loadU32_copy_frame cells base short, ← frame_length]
  exact Cells.window_copy cells base (frame payload)

namespace Tx

/-- The address of the slot of a counter. -/
abbrev slot (counter : UInt8) : Nat :=
  MyFifo.slot 24 8 counter

theorem slots_apart {first second : UInt8} (apart : Ring.index 8 first ≠ Ring.index 8 second) :
    slot first + 24 ≤ slot second ∨ slot second + 24 ≤ slot first :=
  MyFifo.slot_disjoint 24 apart

/-- The address of the waiting packet `distance` places behind the oldest. -/
def waitingSlot (tx : Tx) (distance : Nat) : Nat :=
  slot (Ring.ahead tx.uartTxFifo.rptr distance)

/-- The waiting frames, oldest first. -/
def frames (tx : Tx) : List (List UInt8) :=
  Ring.contents (fun index => frameAt tx.cells (index * 24)) 8 tx.uartTxFifo.rptr tx.backlog

/-- At most 8 packets wait, each with a length that its slot can hold. -/
structure Sound (tx : Tx) : Prop where
  backlog : tx.backlog ≤ 8
  lengths : ∀ distance < tx.backlog, loadU32 tx.cells (tx.waitingSlot distance) ≤ 20

theorem waitingSlot_eq (tx : Tx) (distance : Nat) :
    tx.waitingSlot distance = Ring.index 8 (Ring.ahead tx.uartTxFifo.rptr distance) * 24 :=
  MyFifo.slot_eq _

theorem waitingSlot_zero (tx : Tx) : tx.waitingSlot 0 = slot tx.uartTxFifo.rptr := by
  rw [waitingSlot, Ring.ahead_zero]

theorem frames_length (tx : Tx) : tx.frames.length = tx.backlog :=
  Ring.contents_length _ _ _ _

/-! ## Taking the oldest frame -/

theorem frames_cons {tx : Tx} (some : 0 < tx.backlog) :
    tx.frames = frameAt tx.cells (tx.waitingSlot 0) :: tx.pop.frames := by
  rw [waitingSlot_eq, Ring.ahead_zero]
  exact Ring.contents_pop _ _ some

theorem Sound.pop {tx : Tx} (sound : tx.Sound) (some : 0 < tx.backlog) : tx.pop.Sound := by
  have fewer : tx.pop.backlog = tx.backlog - 1 := MyFifo.pop_backlog some
  refine ⟨?_, fun distance within => ?_⟩
  · rw [fewer]
    exact (Nat.sub_le _ _).trans sound.backlog
  · have shifted : tx.pop.waitingSlot distance = tx.waitingSlot (distance + 1) := by
      rw [waitingSlot, waitingSlot, Ring.ahead_succ]
      rfl
    rw [shifted]
    exact sound.lengths (distance + 1) (by omega)

/-! ## Appending a frame -/

/-- The FIFO after a frame with this payload has been stored. -/
def accept (tx : Tx) (payload : List UInt8) : Tx :=
  { tx with uartTxFifo := { tx.uartTxFifo with
      wptr := tx.uartTxFifo.wptr + 1
      p := Cells.copy tx.cells (slot tx.uartTxFifo.wptr) (frame payload) } }

theorem accept_backlog {tx : Tx} (room : tx.backlog < 8) (payload : List UInt8) :
    (tx.accept payload).backlog = tx.backlog + 1 :=
  Ring.backlog_write (Nat.lt_trans room (by decide))

theorem accept_outside (tx : Tx) {payload : List UInt8} {address : Nat}
    (outside : address < slot tx.uartTxFifo.wptr ∨
      slot tx.uartTxFifo.wptr + (4 + payload.length) ≤ address) :
    (tx.accept payload).cells address = tx.cells address := by
  refine Cells.copy_outside tx.cells (frame payload) ?_
  rw [frame_length]
  exact outside

/-- The waiting slots are not touched by an accepted packet. -/
theorem accept_waiting {tx : Tx} (room : tx.backlog < 8) {payload : List UInt8}
    (short : payload.length ≤ 20) {distance : Nat} (within : distance < tx.backlog) {offset : Nat}
    (bound : offset < 24) :
    (tx.accept payload).cells (tx.waitingSlot distance + offset) =
      tx.cells (tx.waitingSlot distance + offset) := by
  have apart := slots_apart (Ring.index_write_ne (RingSize.divides 8) room within)
  apply accept_outside
  rw [waitingSlot]
  omega

theorem Sound.accept_frames {tx : Tx} (sound : tx.Sound) (room : tx.backlog < 8)
    {payload : List UInt8} (short : payload.length ≤ 20) :
    (tx.accept payload).frames = tx.frames ++ [frame payload] := by
  have stored : frameAt (tx.accept payload).cells (slot tx.uartTxFifo.wptr) = frame payload :=
    frameAt_copy_frame tx.cells _ (Nat.lt_of_le_of_lt short (by decide))
  rw [slot, MyFifo.slot_eq] at stored
  rw [← stored]
  refine Ring.contents_push 8 (Nat.lt_trans room (by decide)) fun distance within => ?_
  rw [← waitingSlot_eq]
  exact frameAt_congr (sound.lengths distance within)
    fun offset bound => accept_waiting room short within bound

theorem Sound.accept {tx : Tx} (sound : tx.Sound) (room : tx.backlog < 8) {payload : List UInt8}
    (short : payload.length ≤ 20) : (tx.accept payload).Sound := by
  refine ⟨?_, fun distance within => ?_⟩
  · rw [accept_backlog room]
    exact room
  · rw [accept_backlog room] at within
    by_cases older : distance < tx.backlog
    · have same : loadU32 (tx.accept payload).cells (tx.waitingSlot distance) =
          loadU32 tx.cells (tx.waitingSlot distance) :=
        loadU32_congr fun offset bound => accept_waiting room short older bound
      exact same.le.trans (sound.lengths distance older)
    · have own : (tx.accept payload).waitingSlot distance = slot tx.uartTxFifo.wptr := by
        rw [show distance = tx.backlog by omega]
        exact congrArg slot (Ring.ahead_backlog _ _)
      have length := loadU32_copy_frame tx.cells (slot tx.uartTxFifo.wptr)
        (Nat.lt_of_le_of_lt short (by decide))
      rw [own]
      exact length.le.trans short

end Tx

/-! ## `ys_uart_send` -/

/-- The payload that `ys_uart_send` stores. -/
def clamped (data : List UInt8) (len : UInt8) : List UInt8 :=
  data.take (min len.toNat 20)

theorem clamped_length {data : List UInt8} {len : UInt8} (enough : len.toNat ≤ data.length) :
    (clamped data len).length = min len.toNat 20 := by
  rw [clamped, List.length_take]
  omega

theorem clamped_short {data : List UInt8} {len : UInt8} (enough : len.toNat ≤ data.length) :
    (clamped data len).length ≤ 20 := by
  rw [clamped_length enough]
  exact Nat.min_le_right _ _

theorem ysUartSend_full {tx : Tx} (data : List UInt8) (len : UInt8) (full : ¬ tx.backlog < 8) :
    ysUartSend tx data len = (tx, -1) :=
  if_pos full

theorem ysUartSend_room {tx : Tx} {data : List UInt8} {len : UInt8} (room : tx.backlog < 8)
    (enough : len.toNat ≤ data.length) :
    ysUartSend tx data len = (tx.accept (clamped data len), 0) := by
  have count : (if 24 - 4 < len then 24 - 4 else len : UInt8).toNat = min len.toNat 20 := by
    split
    · next long =>
        have above : 20 < len.toNat := UInt8.lt_iff_toNat_lt.mp long
        exact (Nat.min_eq_right above.le).symm
    · next fits =>
        have below : ¬ 20 < len.toNat := fun long => fits (UInt8.lt_iff_toNat_lt.mpr long)
        exact (Nat.min_eq_left (Nat.le_of_not_lt below)).symm
  have header : UInt8.ofNat (clamped data len).length =
      (if 24 - 4 < len then 24 - 4 else len : UInt8) := by
    rw [clamped_length enough, ← count, UInt8.ofNat_toNat]
  unfold ysUartSend
  dsimp only
  rw [if_neg (not_not_intro room), Tx.accept, frame, Cells.copy_append, header, count]
  rfl

end Ser2Ble.YsUart
