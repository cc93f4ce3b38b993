import Ser2Ble.YsUart.TransmitQueue

/-!
# The slot that the DMA reads

`ys_uart_process` pops a packet as soon as the DMA has been started on its
slot, so during the transmission the slot counts as free.  It is the next slot
that `ys_uart_send` writes when seven other packets are waiting.
-/

namespace Ser2Ble.YsUart

open Library Proj App

/-- The addresses that `ys_uart_send` stores to. -/
def Tx.Stores (tx : Tx) (len : UInt8) (address : Nat) : Prop :=
  tx.backlog < 8 ∧ Tx.slot tx.uartTxFifo.wptr ≤ address ∧
    address < Tx.slot tx.uartTxFifo.wptr + (4 + min len.toNat 20)

/-- `ys_uart_send` stores nowhere else. -/
theorem ysUartSend_stores {tx : Tx} {data : List UInt8} {len : UInt8} {address : Nat}
    (enough : len.toNat ≤ data.length) (outside : ¬ tx.Stores len address) :
    (ysUartSend tx data len).1.cells address = tx.cells address := by
  by_cases room : tx.backlog < 8
  · rw [ysUartSend_room room enough]
    apply Tx.accept_outside
    rw [clamped_length enough]
    by_contra inside
    exact outside ⟨room, by omega, by omega⟩
  · rw [ysUartSend_full data len room]

/--
The slot passed to `uart_Send_kma`, from the call until the busy flag is down
again; the flag goes up inside the call.
-/
def inFlight (s : State) : Option Nat :=
  match s.pc with
  | .sendKmaLen fp => some fp
  | .sendKmaBusy fp => some fp
  | .raiseBusyFlag fp => some fp
  | .armDelay fp => some fp
  | .startTx fp => some fp
  | _ => if s.tx.uart.uartTxBusyFlag then some s.tx.uart.regDma1Addr else none

/-- The edge makes no `ys_uart_send` call that stores into the slot in flight. -/
def SlotKept (edge : Transition) : Prop :=
  ∀ fp data len, inFlight edge.source = some fp → sendCall edge.event = some (data, len) →
    ∀ offset < 24, ¬ edge.source.tx.Stores len (fp + offset)

/-- No `ys_uart_send` call is made with a packet in flight and exactly seven waiting. -/
def SendsApart (edge : Transition) : Prop :=
  ∀ data len, sendCall edge.event = some (data, len) →
    edge.source.tx.uart.uartTxBusyFlag = true → edge.source.tx.backlog ≠ 7

/-- Where `ys_uart_send` may be called, the slot in flight is the one popped last. -/
theorem TxLive.inFlight_iff {s : State} (live : TxLive s) (maySend : s.pc.maySend = true)
    (fp : Nat) : inFlight s = some fp ↔
      s.tx.uart.uartTxBusyFlag = true ∧ fp = Tx.slot (s.tx.uartTxFifo.rptr - 1) := by
  have place := live.place
  unfold Place at place
  unfold inFlight
  cases pc : s.pc with
  | outside | recvHandler =>
      rw [pc] at place
      dsimp only
      constructor
      · intro flying
        split at flying
        · next up =>
            cases flying
            exact ⟨up, place up⟩
        · cases flying
      · rintro ⟨up, rfl⟩
        rw [if_pos up, place up]
  | _ =>
      rw [pc] at maySend
      cases maySend

theorem stores_free_slot_iff {tx : Tx} (room : tx.backlog < 8) :
    Tx.slot tx.uartTxFifo.wptr = Tx.slot (tx.uartTxFifo.rptr - 1) ↔ tx.backlog = 7 := by
  have index : Ring.index 8 tx.uartTxFifo.wptr = Ring.index 8 (tx.uartTxFifo.rptr - 1) ↔
      tx.backlog = 7 := by
    rw [Ring.index_write_eq_before_iff (RingSize.divides 8)]
    change 8 ∣ tx.backlog + 1 ↔ _
    omega
  rw [← index]
  constructor
  · intro same
    by_contra apart
    exact MyFifo.slot_ne (by decide) apart same
  · exact MyFifo.slot_congr 24

/-- A call stores into the slot popped last exactly when seven packets are waiting. -/
theorem Tx.stores_before_iff (tx : Tx) (len : UInt8) :
    (∃ offset < 24, tx.Stores len (Tx.slot (tx.uartTxFifo.rptr - 1) + offset)) ↔
      tx.backlog = 7 := by
  constructor
  · rintro ⟨offset, bound, room, lower, upper⟩
    rw [← stores_free_slot_iff room]
    by_contra different
    have ranges := Tx.slots_apart (fun same => different (MyFifo.slot_congr 24 same))
    omega
  · intro seven
    have room : tx.backlog < 8 := by omega
    have same := (stores_free_slot_iff room).mpr seven
    exact ⟨0, by decide, room, same.le, by omega⟩

/-- Without a `ys_uart_send` call nothing is stored and nothing is asked of the queue. -/
theorem slotKept_iff_noCall {edge : Transition} (noCall : sendCall edge.event = none) :
    SlotKept edge ↔ SendsApart edge := by
  constructor
  · intro _ data len call
    rw [noCall] at call
    cases call
  · intro _ fp data len _ call
    rw [noCall] at call
    cases call

theorem TxLive.slotKept_iff {source target : State} {event : Event} (live : TxLive source)
    (taken : step source event = some target) :
    SlotKept ⟨source, event, target⟩ ↔ SendsApart ⟨source, event, target⟩ := by
  cases step_tx taken with
  | keep noCall fifo => exact slotKept_iff_noCall noCall
  | pop ret noCall pc result => exact slotKept_iff_noCall noCall
  | send _ _ _ maySend enough result =>
      constructor
      · intro kept data len call up seven
        obtain ⟨offset, bound, stores⟩ := (source.tx.stores_before_iff len).mpr seven
        have flying := (live.inFlight_iff maySend _).mpr ⟨up, rfl⟩
        exact kept _ data len flying call offset bound stores
      · intro apart fp data len flying call offset bound stores
        obtain ⟨up, rfl⟩ := (live.inFlight_iff maySend fp).mp flying
        exact apart data len call up ((source.tx.stores_before_iff len).mp ⟨offset, bound, stores⟩)

/--
The slot in flight is left alone exactly in the runs in which no `ys_uart_send`
call is made while the busy flag is up and seven packets are waiting.
-/
theorem slot_in_flight_kept_iff {baud : UInt8} {edges : List Transition} {final : State}
    (run : UartRun baud edges final) :
    (∀ edge ∈ edges, SlotKept edge) ↔ ∀ edge ∈ edges, SendsApart edge := by
  refine run.exact_condition (init_txLive baud) ?_ ?_ ?_
  · exact fun live taken _ => txLive_step live taken
  · exact fun live taken apart => (live.slotKept_iff taken).mpr apart
  · exact fun live taken kept => (live.slotKept_iff taken).mp kept

/-- One packet started, and two calls made while it is on the wire. -/
def sendInFlight : List Event :=
  .send [1] 1 :: transmission 10 ++ [.send [2] 1, .send [3] 1]

set_option maxRecDepth 100000 in
theorem slot_in_flight_kept_iff_sendInFlight :
    ∃ edges final, edges.map Edge.event = sendInFlight ∧ UartRun 4 edges final ∧
      (∃ edge ∈ edges, sendCall edge.event = some ([3], 1) ∧ inFlight edge.source = some 0) ∧
      ∀ edge ∈ edges, SlotKept edge := by
  obtain ⟨final, labels, run⟩ := @enabled_run _ _ step (ysUartInit powerOn 4) sendInFlight
    (by decide +kernel)
  have few : ∀ edge ∈ trace step (ysUartInit powerOn 4) sendInFlight,
      edge.source.tx.backlog ≠ 7 := by
    decide +kernel
  have flying : (trace step (ysUartInit powerOn 4) sendInFlight).getLast?.map (fun edge =>
      (sendCall edge.event, inFlight edge.source)) = some (some ([3], 1), some 0) := by
    decide +kernel
  obtain ⟨edge, last, shown⟩ := Option.map_eq_some_iff.mp flying
  obtain ⟨call, slot⟩ := Prod.mk.inj shown
  refine ⟨_, final, labels, run, ⟨edge, List.mem_of_getLast? last, call, slot⟩, ?_⟩
  exact (slot_in_flight_kept_iff run).mpr fun edge member _ _ _ _ => few edge member

/-- One packet started, and seven more accepted behind it. -/
def sevenBehind : List Event :=
  .send [1] 1 :: (transmission 10 ++ List.replicate 7 (.send [2] 1))

set_option maxRecDepth 100000 in
/-- One packet in flight, seven behind it: the next call overwrites the packet in flight. -/
theorem slot_in_flight_overwritten :
    ∃ edges final, edges.map Edge.event = sevenBehind ++ [.send [3] 1] ∧ UartRun 4 edges final ∧
      (∃ edge ∈ edges, inFlight edge.source = some 0 ∧
        edge.source.tx.cells 4 = 1 ∧ edge.target.tx.cells 4 = 3) ∧
      ¬ ∀ edge ∈ edges, SlotKept edge := by
  have computed : ((follow step (ysUartInit powerOn 4) sevenBehind).bind fun s =>
      (step s (.send [3] 1)).map fun t =>
        [s.tx.backlog, Tx.slot s.tx.uartTxFifo.wptr, (inFlight s).getD 1, (s.tx.cells 4).toNat,
          (t.tx.cells 4).toNat]) = some [7, 0, 0, 1, 3] := by
    decide +kernel
  obtain ⟨edges, source, target, labels, run, member, facts⟩ := observed_run computed
  simp only [List.cons.injEq, and_true] at facts
  obtain ⟨seven, free, flying, before, after⟩ := facts
  have slot : inFlight source = some 0 := by
    cases shape : inFlight source with
    | none =>
        rw [shape] at flying
        cases flying
    | some fp =>
        rw [shape] at flying
        exact congrArg some flying
  refine ⟨edges, target, labels, run, ⟨_, member, slot, UInt8.toNat_inj.mp before,
    UInt8.toNat_inj.mp after⟩, fun kept => ?_⟩
  refine kept _ member 0 [3] 1 slot rfl 0 (by decide) ⟨?_, ?_, ?_⟩
  · dsimp only
    omega
  · dsimp only
    omega
  · dsimp only
    omega

end Ser2Ble.YsUart
