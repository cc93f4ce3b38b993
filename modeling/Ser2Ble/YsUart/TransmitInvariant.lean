import Ser2Ble.YsUart.Transmit

/-!
# Invariants of the transmit side

The slots of the waiting packets stay well formed in every run, and at each
place of `ys_uart_process` the slot that is handed over is the oldest one.
-/

namespace Ser2Ble.YsUart

open Library Proj App

/-- The arguments of the `ys_uart_send` call that an event makes. -/
def sendCall : Event → Option (List UInt8 × UInt8)
  | .send data len => some (data, len)
  | .attWrite packet => some (packet.value, UInt8.ofNat (packet.l2capLen.toNat - 3))
  | _ => none

/-! ## What a transition does to the FIFO -/

inductive TxStep (source : State) (event : Event) (target : State) : Prop where
  | keep (noCall : sendCall event = none)
      (fifo : target.tx.uartTxFifo = source.tx.uartTxFifo) : TxStep source event target
  | send (data : List UInt8) (len : UInt8) (call : sendCall event = some (data, len))
      (place : source.pc.maySend = true) (enough : len.toNat ≤ data.length)
      (result : target = { source with tx := (ysUartSend source.tx data len).1 }) :
      TxStep source event target
  | pop (ret : UInt8) (noCall : sendCall event = none) (pc : source.pc = .txPop ret)
      (result : target = { source with tx := source.tx.pop, pc := .outside }) :
      TxStep source event target

theorem ysUartSetBaud_tx (s : State) (baud : UInt8) :
    (ysUartSetBaud s baud).tx.uartTxFifo = s.tx.uartTxFifo ∧
      (ysUartSetBaud s baud).tx.uart.uartTxBusyFlag = s.tx.uart.uartTxBusyFlag ∧
      (ysUartSetBaud s baud).tx.uart.regDma1Addr = s.tx.uart.regDma1Addr := by
  unfold ysUartSetBaud
  split
  · unfold uartInit
    split <;> exact ⟨rfl, rfl, rfl⟩
  · exact ⟨rfl, rfl, rfl⟩

theorem step_tx {source target : State} {event : Event}
    (taken : step source event = some target) : TxStep source event target := by
  cases step_cases taken with
  | irq byte txDone now =>
      cases txDone with
      | false => exact .keep rfl rfl
      | true => exact .keep rfl rfl
  | send data len place enough => exact .send data len rfl place enough rfl
  | attWrite packet pc =>
      refine .send packet.value _ rfl ?_ ?_ rfl
      · rw [pc]
        rfl
      · rw [packet.narrowed]
        exact Nat.mod_le _ _
  | setBaud baud pc => exact .keep rfl (ysUartSetBaud_tx source baud).1
  | txPop now ret pc => exact .pop ret rfl pc rfl
  | _ => exact .keep rfl rfl

/-! ## The packet being handed over -/

/-- The address is that of the oldest waiting packet. -/
def Oldest (tx : Tx) (fp : Nat) : Prop :=
  0 < tx.backlog ∧ fp = tx.waitingSlot 0

/-- While the busy flag is up, the DMA reads the slot that was popped last. -/
def Handed (tx : Tx) : Prop :=
  tx.uart.uartTxBusyFlag = true → tx.uart.regDma1Addr = Tx.slot (tx.uartTxFifo.rptr - 1)

/-- What each place of the main loop knows about the transmit side. -/
def Place (s : State) : Prop :=
  match s.pc with
  | .txIsBusy fp => Oldest s.tx fp ∧ Handed s.tx
  | .sendKmaLen fp => Oldest s.tx fp ∧ s.tx.uart.uartTxBusyFlag = false
  | .sendKmaBusy fp => Oldest s.tx fp ∧ s.tx.uart.uartTxBusyFlag = false
  | .raiseBusyFlag fp => Oldest s.tx fp ∧ s.tx.uart.uartTxBusyFlag = false
  | .armDelay fp => Oldest s.tx fp
  | .startTx fp => Oldest s.tx fp
  | .txPop ret => Oldest s.tx s.tx.uart.regDma1Addr ∧ ret = 1
  | _ => Handed s.tx

theorem place_irq {s : State} (place : Place s) (byte : Option UInt8) (txDone : Bool) (now : Nat) :
    Place (ysUartIrqHandler s byte txDone now) := by
  cases txDone with
  | false => exact place
  | true =>
      have same : (ysUartIrqHandler s byte true now).pc = s.pc := rfl
      unfold Place at place ⊢
      rw [same]
      cases pc : s.pc with
      | txIsBusy fp =>
          rw [pc] at place
          exact ⟨place.1, fun up => nomatch up⟩
      | sendKmaLen fp | sendKmaBusy fp | raiseBusyFlag fp =>
          rw [pc] at place
          exact ⟨place.1, rfl⟩
      | armDelay fp | startTx fp | txPop ret =>
          rw [pc] at place
          exact place
      | _ => exact fun up => nomatch up

/-- A call of `ys_uart_send` leaves the packet on the wire where it is. -/
theorem handed_send {s : State} (place : Place s) (maySend : s.pc.maySend = true)
    (data : List UInt8) (len : UInt8) :
    Place { s with tx := (ysUartSend s.tx data len).1 } := by
  obtain ⟨uart, read⟩ := ysUartSend_frame s.tx data len
  have handed : Handed s.tx → Handed (ysUartSend s.tx data len).1 := by
    unfold Handed
    rw [uart, read]
    exact id
  unfold Place at place ⊢
  dsimp only
  cases pc : s.pc with
  | outside | recvHandler =>
      rw [pc] at place
      exact handed place
  | _ =>
      rw [pc] at maySend
      cases maySend

theorem uartTxIsBusy_busy {uart : Uart} {now : Nat} (busy : (uartTxIsBusy uart now).1 = true) :
    (uartTxIsBusy uart now).2 = uart := by
  unfold uartTxIsBusy at busy ⊢
  split at busy
  · cases busy
  · next armed => rw [if_neg armed]

theorem place_step {source target : State} {event : Event} (sound : source.tx.Sound)
    (place : Place source) (taken : step source event = some target) : Place target := by
  cases step_cases taken with
  | irq byte txDone now => exact place_irq place byte txDone now
  | process pc | idleFlush now pc | rxGet now fp pc | rxEmpty now pc | recvCall now fp pc
  | handlerDone fp len pc | handlerRefused ret fp len pc | rxPop now pc | txEmpty now pc =>
      rw [Place, pc] at place
      exact place
  | txGet now fp pc get =>
      rw [Place, pc] at place
      obtain ⟨some, oldest⟩ := (MyFifo.get_eq_some_iff _ _).mp get
      refine ⟨⟨some, ?_⟩, place⟩
      rw [oldest, Tx.waitingSlot_zero]
  | txBusy now fp pc busy =>
      rw [Place, pc] at place
      change Handed { source.tx with uart := (uartTxIsBusy source.tx.uart now).2 }
      rw [uartTxIsBusy_busy busy]
      exact place.2
  | txFree now fp pc free =>
      rw [Place, pc] at place
      exact ⟨place.1, uartTxIsBusy_free free⟩
  | kmaTooLong now fp pc long =>
      -- a waiting packet is never that long
      rw [Place, pc] at place
      obtain ⟨⟨some, oldest⟩, _⟩ := place
      have short := sound.lengths 0 some
      rw [← oldest] at short
      omega
  | kmaLen now fp pc fits =>
      rw [Place, pc] at place
      exact place
  | kmaBusy now fp pc busy =>
      -- the flag went down at the first test and nothing raised it since
      rw [Place, pc] at place
      rw [uartTxIsBusy_of_clear now place.2] at busy
      cases busy
  | kmaFree now fp pc free =>
      rw [Place, pc] at place
      exact ⟨place.1, uartTxIsBusy_free free⟩
  | raiseBusyFlag now fp pc =>
      rw [Place, pc] at place
      exact place.1
  | armDelay now fp pc =>
      rw [Place, pc] at place
      exact place
  | startTx now fp pc =>
      rw [Place, pc] at place
      obtain ⟨some, oldest⟩ := place
      exact ⟨⟨some, oldest⟩, rfl⟩
  | txPop now ret pc =>
      rw [Place, pc] at place
      obtain ⟨⟨_, oldest⟩, _⟩ := place
      intro up
      change source.tx.uart.regDma1Addr = Tx.slot (source.tx.uartTxFifo.rptr + 1 - 1)
      rw [oldest, Tx.waitingSlot_zero, UInt8.add_sub_cancel]
  | send data len maySend enough => exact handed_send place maySend data len
  | attWrite packet pc => exact handed_send place (by rw [pc]; rfl) packet.value _
  | setBaud baud pc =>
      rw [Place, pc] at place
      obtain ⟨fifo, flag, address⟩ := ysUartSetBaud_tx source baud
      rw [Place, ysUartSetBaud_pc, pc]
      intro up
      rw [flag] at up
      rw [address, fifo]
      exact place up

/-! ## Every run -/

structure TxLive (s : State) : Prop where
  sound : s.tx.Sound
  place : Place s

theorem Tx.Sound.send {tx : Tx} (sound : tx.Sound) {data : List UInt8} {len : UInt8}
    (enough : len.toNat ≤ data.length) : (ysUartSend tx data len).1.Sound := by
  by_cases room : tx.backlog < 8
  · rw [ysUartSend_room room enough]
    exact sound.accept room (clamped_short enough)
  · rw [ysUartSend_full data len room]
    exact sound

theorem TxLive.popping {s : State} (live : TxLive s) {ret : UInt8} (pc : s.pc = .txPop ret) :
    Oldest s.tx s.tx.uart.regDma1Addr ∧ ret = 1 := by
  have place := live.place
  rw [Place, pc] at place
  exact place

theorem Tx.Sound.of_fifo {before after : Tx} (sound : before.Sound)
    (fifo : after.uartTxFifo = before.uartTxFifo) : after.Sound := by
  obtain ⟨ring, uart⟩ := after
  cases fifo
  exact ⟨sound.backlog, sound.lengths⟩

theorem txLive_step {source target : State} {event : Event} (live : TxLive source)
    (taken : step source event = some target) : TxLive target := by
  refine ⟨?_, place_step live.sound live.place taken⟩
  cases step_tx taken with
  | keep noCall fifo => exact live.sound.of_fifo fifo
  | send data len call place enough result =>
      rw [result]
      exact live.sound.send enough
  | pop ret noCall pc result =>
      rw [result]
      exact live.sound.pop (live.popping pc).1.1

theorem init_tx (baud : UInt8) :
    (ysUartInit powerOn baud).tx.uartTxFifo = .init ∧
      (ysUartInit powerOn baud).tx.uart.uartTxBusyFlag = false := by
  obtain ⟨fifo, flag, _⟩ := ysUartSetBaud_tx { powerOn with rx := powerOn.rx.start } baud
  exact ⟨fifo, flag⟩

theorem init_txLive (baud : UInt8) : TxLive (ysUartInit powerOn baud) := by
  obtain ⟨fifo, flag⟩ := init_tx baud
  constructor
  · have empty : (⟨.init, .powerOn⟩ : Tx).Sound :=
      ⟨by decide, fun distance within => absurd within (Nat.not_lt_zero distance)⟩
    exact empty.of_fifo fifo
  · rw [Place, init_pc]
    intro up
    rw [flag] at up
    cases up

theorem txLive_run {baud : UInt8} {edges : List Transition} {final : State}
    (run : UartRun baud edges final) : TxLive final :=
  run.invariant (init_txLive baud) txLive_step

end Ser2Ble.YsUart
