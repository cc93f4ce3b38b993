import Ser2Ble.App.NusReceive
import Ser2Ble.Library.Run

/-!
# The module as a transition system

The main loop runs `ys_uart_process` statement by statement; the interrupt
handler is atomic and may run between any two statements.  The window between
`irq_disable` and `irq_restore` is one statement.  The other calls into the
module come from the main loop: while it is outside `ys_uart_process`, or, for
`ys_uart_send`, also from inside `ys_uart_recv_handler`.
-/

namespace Ser2Ble.YsUart

open Library Proj App

inductive Event where
  /-- an interrupt: the byte received, if any, and whether a DMA transmission has ended -/
  | irq (byte : Option UInt8) (txDone : Bool) (now : Nat)
  /-- the call of `ys_uart_process`, through `uart_ErrorCLR` -/
  | process
  /-- the next statement of the running `ys_uart_process` -/
  | statement (now : Nat)
  | handlerReturn (ret : Int)
  | send (data : List UInt8) (len : UInt8)
  | attWrite (packet : RfPacketAttWrite)
  | setBaud (baud : UInt8)

/-- The places of the main loop from which `ys_uart_send` is called. -/
def Pc.maySend : Pc → Bool
  | .outside => true
  | .recvHandler _ _ => true
  | _ => false

/-- One statement of `ys_uart_process`, or of `uart_Send_kma` inside it. -/
def statement (s : State) (now : Nat) : Option State :=
  match s.pc with
  | .outside => none
  | .idleFlush => some { s with rx := s.rx.idleFlush now, pc := .rxGet }
  | .rxGet =>
      match myFifoGet s.rx.uartRxFifo with
      | some fp => some { s with pc := .recvCall fp }
      | none => some { s with pc := .txGet }
  | .recvCall fp => some { s with pc := .recvHandler fp (s.rx.cells fp - 2) }
  | .recvHandler _ _ => none
  | .rxPop => some { s with rx := s.rx.pop, pc := .txGet }
  | .txGet =>
      match myFifoGet s.tx.uartTxFifo with
      | some fp => some { s with pc := .txIsBusy fp }
      | none => some { s with pc := .outside }
  | .txIsBusy fp =>
      let tx := { s.tx with uart := (uartTxIsBusy s.tx.uart now).2 }
      if (uartTxIsBusy s.tx.uart now).1 then some { s with tx := tx, pc := .outside }
      else some { s with tx := tx, pc := .sendKmaLen fp }
  | .sendKmaLen fp =>
      if 252 < loadU32 s.tx.cells fp then some { s with pc := .txPop 0 }
      else some { s with pc := .sendKmaBusy fp }
  | .sendKmaBusy fp =>
      let tx := { s.tx with uart := (uartTxIsBusy s.tx.uart now).2 }
      if (uartTxIsBusy s.tx.uart now).1 then some { s with tx := tx, pc := .txPop 0 }
      else some { s with tx := tx, pc := .raiseBusyFlag fp }
  | .raiseBusyFlag fp =>
      some { s with tx := { s.tx with uart := uartRaiseTxBusyFlag s.tx.uart }, pc := .armDelay fp }
  | .armDelay fp =>
      some { s with
        tx := { s.tx with uart := uartArmContinueDelay s.tx.uart now }, pc := .startTx fp }
  | .startTx fp =>
      some { s with tx := { s.tx with uart := Proj.startTx s.tx.uart fp }, pc := .txPop 1 }
  | .txPop _ => some { s with tx := s.tx.pop, pc := .outside }

def step (s : State) : Event → Option State
  | .irq byte txDone now => some (ysUartIrqHandler s byte txDone now)
  | .process => if s.pc = .outside then some { s with pc := .idleFlush } else none
  | .statement now => statement s now
  | .handlerReturn ret =>
      match s.pc with
      | .recvHandler _ _ =>
          if ret = 0 then some { s with pc := .rxPop } else some { s with pc := .txGet }
      | _ => none
  | .send data len =>
      if s.pc.maySend = true ∧ len.toNat ≤ data.length then
        some { s with tx := (ysUartSend s.tx data len).1 }
      else none
  | .attWrite packet =>
      if s.pc = .outside then some { s with tx := (nusOnReceiveData s.tx packet).1 } else none
  | .setBaud baud => if s.pc = .outside then some (ysUartSetBaud s baud) else none

/-! ## Every transition, once -/

/-- The transitions of the module, one constructor for each way a step can go. -/
inductive Step (s : State) : Event → State → Prop where
  | irq (byte : Option UInt8) (txDone : Bool) (now : Nat) :
      Step s (.irq byte txDone now) (ysUartIrqHandler s byte txDone now)
  | process (pc : s.pc = .outside) : Step s .process { s with pc := .idleFlush }
  | idleFlush (now : Nat) (pc : s.pc = .idleFlush) :
      Step s (.statement now) { s with rx := s.rx.idleFlush now, pc := .rxGet }
  | rxGet (now fp : Nat) (pc : s.pc = .rxGet) (get : myFifoGet s.rx.uartRxFifo = some fp) :
      Step s (.statement now) { s with pc := .recvCall fp }
  | rxEmpty (now : Nat) (pc : s.pc = .rxGet) (get : myFifoGet s.rx.uartRxFifo = none) :
      Step s (.statement now) { s with pc := .txGet }
  | recvCall (now fp : Nat) (pc : s.pc = .recvCall fp) :
      Step s (.statement now) { s with pc := .recvHandler fp (s.rx.cells fp - 2) }
  | handlerDone (fp : Nat) (len : UInt8) (pc : s.pc = .recvHandler fp len) :
      Step s (.handlerReturn 0) { s with pc := .rxPop }
  | handlerRefused (ret : Int) (fp : Nat) (len : UInt8) (pc : s.pc = .recvHandler fp len)
      (refused : ret ≠ 0) : Step s (.handlerReturn ret) { s with pc := .txGet }
  | rxPop (now : Nat) (pc : s.pc = .rxPop) :
      Step s (.statement now) { s with rx := s.rx.pop, pc := .txGet }
  | txGet (now fp : Nat) (pc : s.pc = .txGet) (get : myFifoGet s.tx.uartTxFifo = some fp) :
      Step s (.statement now) { s with pc := .txIsBusy fp }
  | txEmpty (now : Nat) (pc : s.pc = .txGet) (get : myFifoGet s.tx.uartTxFifo = none) :
      Step s (.statement now) { s with pc := .outside }
  | txBusy (now fp : Nat) (pc : s.pc = .txIsBusy fp)
      (busy : (uartTxIsBusy s.tx.uart now).1 = true) :
      Step s (.statement now)
        { s with tx := { s.tx with uart := (uartTxIsBusy s.tx.uart now).2 }, pc := .outside }
  | txFree (now fp : Nat) (pc : s.pc = .txIsBusy fp)
      (free : (uartTxIsBusy s.tx.uart now).1 = false) :
      Step s (.statement now)
        { s with tx := { s.tx with uart := (uartTxIsBusy s.tx.uart now).2 }, pc := .sendKmaLen fp }
  | kmaTooLong (now fp : Nat) (pc : s.pc = .sendKmaLen fp) (long : 252 < loadU32 s.tx.cells fp) :
      Step s (.statement now) { s with pc := .txPop 0 }
  | kmaLen (now fp : Nat) (pc : s.pc = .sendKmaLen fp) (fits : ¬ 252 < loadU32 s.tx.cells fp) :
      Step s (.statement now) { s with pc := .sendKmaBusy fp }
  | kmaBusy (now fp : Nat) (pc : s.pc = .sendKmaBusy fp)
      (busy : (uartTxIsBusy s.tx.uart now).1 = true) :
      Step s (.statement now)
        { s with tx := { s.tx with uart := (uartTxIsBusy s.tx.uart now).2 }, pc := .txPop 0 }
  | kmaFree (now fp : Nat) (pc : s.pc = .sendKmaBusy fp)
      (free : (uartTxIsBusy s.tx.uart now).1 = false) :
      Step s (.statement now)
        { s with
          tx := { s.tx with uart := (uartTxIsBusy s.tx.uart now).2 }, pc := .raiseBusyFlag fp }
  | raiseBusyFlag (now fp : Nat) (pc : s.pc = .raiseBusyFlag fp) :
      Step s (.statement now)
        { s with tx := { s.tx with uart := uartRaiseTxBusyFlag s.tx.uart }, pc := .armDelay fp }
  | armDelay (now fp : Nat) (pc : s.pc = .armDelay fp) :
      Step s (.statement now)
        { s with
          tx := { s.tx with uart := uartArmContinueDelay s.tx.uart now }, pc := .startTx fp }
  | startTx (now fp : Nat) (pc : s.pc = .startTx fp) :
      Step s (.statement now)
        { s with tx := { s.tx with uart := Proj.startTx s.tx.uart fp }, pc := .txPop 1 }
  | txPop (now : Nat) (ret : UInt8) (pc : s.pc = .txPop ret) :
      Step s (.statement now) { s with tx := s.tx.pop, pc := .outside }
  | send (data : List UInt8) (len : UInt8) (pc : s.pc.maySend = true)
      (fits : len.toNat ≤ data.length) :
      Step s (.send data len) { s with tx := (ysUartSend s.tx data len).1 }
  | attWrite (packet : RfPacketAttWrite) (pc : s.pc = .outside) :
      Step s (.attWrite packet) { s with tx := (nusOnReceiveData s.tx packet).1 }
  | setBaud (baud : UInt8) (pc : s.pc = .outside) :
      Step s (.setBaud baud) (ysUartSetBaud s baud)

theorem statement_cases {s target : State} {now : Nat} (taken : statement s now = some target) :
    Step s (.statement now) target := by
  unfold statement at taken
  split at taken
  case h_1 | h_5 => cases taken
  case h_2 pc =>
    cases taken
    exact .idleFlush now pc
  case h_3 pc =>
    split at taken
    · next fp get => cases taken; exact .rxGet now fp pc get
    · next get => cases taken; exact .rxEmpty now pc get
  case h_4 fp pc =>
    cases taken
    exact .recvCall now fp pc
  case h_6 pc =>
    cases taken
    exact .rxPop now pc
  case h_7 pc =>
    split at taken
    · next fp get => cases taken; exact .txGet now fp pc get
    · next get => cases taken; exact .txEmpty now pc get
  case h_8 fp pc =>
    cases busy : (uartTxIsBusy s.tx.uart now).1 with
    | true => rw [busy] at taken; cases taken; exact .txBusy now fp pc busy
    | false => rw [busy] at taken; cases taken; exact .txFree now fp pc busy
  case h_9 fp pc =>
    split at taken
    · next long => cases taken; exact .kmaTooLong now fp pc long
    · next fits => cases taken; exact .kmaLen now fp pc fits
  case h_10 fp pc =>
    cases busy : (uartTxIsBusy s.tx.uart now).1 with
    | true => rw [busy] at taken; cases taken; exact .kmaBusy now fp pc busy
    | false => rw [busy] at taken; cases taken; exact .kmaFree now fp pc busy
  case h_11 fp pc =>
    cases taken
    exact .raiseBusyFlag now fp pc
  case h_12 fp pc =>
    cases taken
    exact .armDelay now fp pc
  case h_13 fp pc =>
    cases taken
    exact .startTx now fp pc
  case h_14 ret pc =>
    cases taken
    exact .txPop now ret pc

theorem step_cases {s target : State} {event : Event} (taken : step s event = some target) :
    Step s event target := by
  cases event with
  | irq byte txDone now =>
      cases taken
      exact .irq byte txDone now
  | process =>
      simp only [step] at taken
      split at taken
      · next pc => cases taken; exact .process pc
      · cases taken
  | statement now => exact statement_cases taken
  | handlerReturn ret =>
      simp only [step] at taken
      split at taken
      · next fp len pc =>
          by_cases done : ret = 0
          · rw [if_pos done] at taken
            cases taken
            subst done
            exact .handlerDone fp len pc
          · rw [if_neg done] at taken
            cases taken
            exact .handlerRefused ret fp len pc done
      · cases taken
  | send data len =>
      simp only [step] at taken
      split at taken
      · next enabled => cases taken; exact .send data len enabled.1 enabled.2
      · cases taken
  | attWrite packet =>
      simp only [step] at taken
      split at taken
      · next pc => cases taken; exact .attWrite packet pc
      · cases taken
  | setBaud baud =>
      simp only [step] at taken
      split at taken
      · next pc => cases taken; exact .setBaud baud pc
      · cases taken

abbrev Transition := Edge State Event

/-- The runs of the module from `ys_uart_init(baud)` on. -/
abbrev UartRun (baud : UInt8) : List Transition → State → Prop :=
  Run step (ysUartInit powerOn baud)

theorem ysUartSetBaud_pc (s : State) (baud : UInt8) : (ysUartSetBaud s baud).pc = s.pc := by
  unfold ysUartSetBaud
  split <;> rfl

theorem init_pc (baud : UInt8) : (ysUartInit powerOn baud).pc = .outside :=
  ysUartSetBaud_pc _ baud

/-! ## The rate -/

/-- The idle time and the divider registers are the same. -/
structure SameRate (source target : State) : Prop where
  idle : target.rx.uartRxIdle = source.rx.uartRxIdle
  divider : target.tx.uart.regUartClkDiv = source.tx.uart.regUartClkDiv
  bwpc : target.tx.uart.regUartBwpc = source.tx.uart.regUartBwpc

theorem closePacket_idle (rx : Rx) : rx.closePacket.uartRxIdle = rx.uartRxIdle := by
  unfold Rx.closePacket
  split <;> rfl

theorem receiveByte_idle (rx : Rx) (byte : UInt8) (now : Nat) :
    (rx.receiveByte byte now).uartRxIdle = rx.uartRxIdle := by
  unfold Rx.receiveByte
  dsimp only
  split
  · rfl
  · exact closePacket_idle (rx.storeByte byte)

theorem ysUartSend_frame (tx : Tx) (data : List UInt8) (len : UInt8) :
    (ysUartSend tx data len).1.uart = tx.uart ∧
      (ysUartSend tx data len).1.uartTxFifo.rptr = tx.uartTxFifo.rptr := by
  unfold ysUartSend
  split <;> exact ⟨rfl, rfl⟩

/-- The rate is changed by `ys_uart_set_baud` only. -/
theorem step_rate {source target : State} {event : Event}
    (taken : step source event = some target) :
    SameRate source target ∨ ∃ baud, event = .setBaud baud ∧ target = ysUartSetBaud source baud := by
  have tested (now : Nat) := uartTxIsBusy_frame source.tx.uart now
  cases step_cases taken with
  | irq byte txDone now =>
      left
      refine ⟨?_, by cases txDone <;> rfl, by cases txDone <;> rfl⟩
      cases byte with
      | none => rfl
      | some byte => exact receiveByte_idle source.rx byte now
  | idleFlush now pc =>
      left
      refine ⟨?_, rfl, rfl⟩
      change (source.rx.idleFlush now).uartRxIdle = _
      unfold Rx.idleFlush
      split
      · exact closePacket_idle source.rx
      · rfl
  | txBusy now | txFree now | kmaBusy now | kmaFree now =>
      exact Or.inl ⟨rfl, (tested now).2.1, (tested now).2.2.1⟩
  | send data len =>
      have same := (ysUartSend_frame source.tx data len).1
      exact Or.inl ⟨rfl, congrArg _ same, congrArg _ same⟩
  | attWrite packet =>
      have same := (ysUartSend_frame source.tx packet.value
        (UInt8.ofNat (packet.l2capLen.toNat - 3))).1
      exact Or.inl ⟨rfl, congrArg _ same, congrArg _ same⟩
  | setBaud baud pc => exact Or.inr ⟨baud, rfl, rfl⟩
  | _ => exact Or.inl ⟨rfl, rfl, rfl⟩

/-! ## `uart_Send_kma` -/

theorem step_raiseBusyFlag (rx : Rx) (fifo : MyFifo 24 8) (uart : Uart) (fp now : Nat) :
    step ⟨rx, ⟨fifo, uart⟩, .raiseBusyFlag fp⟩ (.statement now) =
      some ⟨rx, ⟨fifo, uartRaiseTxBusyFlag uart⟩, .armDelay fp⟩ := rfl

theorem step_armDelay (rx : Rx) (fifo : MyFifo 24 8) (uart : Uart) (fp now : Nat) :
    step ⟨rx, ⟨fifo, uart⟩, .armDelay fp⟩ (.statement now) =
      some ⟨rx, ⟨fifo, uartArmContinueDelay uart now⟩, .startTx fp⟩ := rfl

theorem step_startTx (rx : Rx) (fifo : MyFifo 24 8) (uart : Uart) (fp now : Nat) :
    step ⟨rx, ⟨fifo, uart⟩, .startTx fp⟩ (.statement now) =
      some ⟨rx, ⟨fifo, startTx uart fp⟩, .txPop 1⟩ := rfl

/-- With no interrupt in between, the statements of `uart_Send_kma` have its effect. -/
theorem sendKma_statements {s : State} {fp : Nat} (pc : s.pc = .sendKmaLen fp) (now : Nat) :
    ∃ edges, (∀ edge ∈ edges, edge.event = .statement now) ∧ Run step s edges { s with
      tx := { s.tx with uart := (uartSendKma s.tx.uart s.tx.cells fp now).2 }
      pc := .txPop (uartSendKma s.tx.uart s.tx.cells fp now).1 } := by
  obtain ⟨rx, ⟨fifo, uart⟩, place⟩ := s
  dsimp only at pc
  subst pc
  by_cases long : 252 < loadU32 fifo.p fp
  · have sent : uartSendKma uart fifo.p fp now = (0, uart) := if_pos long
    have dropped : step ⟨rx, ⟨fifo, uart⟩, .sendKmaLen fp⟩ (.statement now) =
        some ⟨rx, ⟨fifo, uart⟩, .txPop 0⟩ := if_pos long
    simp only [Tx.cells, sent]
    exact ⟨_, by simp, Run.refl.tail dropped⟩
  · have short : step ⟨rx, ⟨fifo, uart⟩, .sendKmaLen fp⟩ (.statement now) =
        some ⟨rx, ⟨fifo, uart⟩, .sendKmaBusy fp⟩ := if_neg long
    obtain ⟨⟨busy, tested⟩, test⟩ : ∃ answer, uartTxIsBusy uart now = answer := ⟨_, rfl⟩
    cases busy with
    | true =>
        have sent : uartSendKma uart fifo.p fp now = (0, tested) := by
          rw [uartSendKma, if_neg long, test]
        have dropped : step ⟨rx, ⟨fifo, uart⟩, .sendKmaBusy fp⟩ (.statement now) =
            some ⟨rx, ⟨fifo, tested⟩, .txPop 0⟩ := by
          simp only [step, statement, test, if_true]
        simp only [Tx.cells, sent]
        exact ⟨_, by simp, (Run.refl.tail short).tail dropped⟩
    | false =>
        have sent : uartSendKma uart fifo.p fp now =
            (1, startTx (uartArmContinueDelay (uartRaiseTxBusyFlag tested) now) fp) := by
          rw [uartSendKma, if_neg long, test]
        have free : step ⟨rx, ⟨fifo, uart⟩, .sendKmaBusy fp⟩ (.statement now) =
            some ⟨rx, ⟨fifo, tested⟩, .raiseBusyFlag fp⟩ := by
          simp only [step, statement, test, Bool.false_eq_true, if_false]
        simp only [Tx.cells, sent]
        have atRaise := (Run.refl.tail short).tail free
        have atArm := atRaise.tail (step_raiseBusyFlag rx fifo tested fp now)
        have atStart := atArm.tail (step_armDelay _ _ _ _ now)
        exact ⟨_, by simp, atStart.tail (step_startTx _ _ _ _ now)⟩

/-! ## What a run shows -/

/-- The byte an event receives. -/
def Event.byte : Event → Option UInt8
  | .irq byte _ _ => byte
  | _ => none

/-- The bytes received, in order. -/
def received (edges : List Transition) : List UInt8 :=
  edges.filterMap fun edge => edge.event.byte

/-- The event reaches the place where the packet under assembly is closed. -/
def closesPacket (s : State) : Event → Bool
  | .irq (some byte) _ _ => !decide ((s.rx.storeByte byte).length < 22)
  | .statement now => decide (s.pc = .idleFlush) && s.rx.idleExpired now
  | _ => false

/-- A packet is committed: it is closed and the FIFO is not full. -/
def commits (edge : Transition) : Prop :=
  closesPacket edge.source edge.event = true ∧ edge.source.rx.backlog < 64

instance (edge : Transition) : Decidable (commits edge) :=
  inferInstanceAs (Decidable (_ ∧ _))

/-- The clock reading an edge takes, if its path through the code reads the clock. -/
def clockReading (edge : Transition) : Option Nat :=
  match edge.event, edge.source.pc with
  | .irq (some byte) _ now, _ =>
      if (edge.source.rx.storeByte byte).length < 22 then some now else none
  | .statement now, .idleFlush => if edge.source.rx.uartRxTick ≠ 0 then some now else none
  | .statement now, .txIsBusy _ =>
      if edge.source.tx.uart.uartContinueDelayTime ≠ 0 then some now else none
  | .statement now, .sendKmaBusy _ =>
      if edge.source.tx.uart.uartContinueDelayTime ≠ 0 then some now else none
  | .statement now, .armDelay _ => some now
  | _, _ => none

theorem clockReading_idleFlush {s target : State} {now : Nat} (pc : s.pc = .idleFlush)
    (armed : s.rx.uartRxTick ≠ 0) : clockReading ⟨s, .statement now, target⟩ = some now := by
  unfold clockReading
  dsimp only
  rw [pc]
  exact if_pos armed

theorem clockReading_armDelay {s target : State} {now fp : Nat} (pc : s.pc = .armDelay fp) :
    clockReading ⟨s, .statement now, target⟩ = some now := by
  unfold clockReading
  dsimp only
  rw [pc]

/-- The clock readings of a run are strictly increasing. -/
def Increasing (edges : List Transition) : Prop :=
  (edges.filterMap clockReading).Pairwise (· < ·)

theorem Increasing.of_append {before after : List Transition}
    (increasing : Increasing (before ++ after)) : Increasing before := by
  rw [Increasing, List.filterMap_append, List.pairwise_append] at increasing
  exact increasing.1

theorem Increasing.lt {before after : List Transition} {edge : Transition} {earlier now : Nat}
    (increasing : Increasing (before ++ edge :: after))
    (member : earlier ∈ before.filterMap clockReading) (reading : clockReading edge = some now) :
    earlier < now := by
  rw [Increasing, List.filterMap_append, List.filterMap_cons_some reading,
    List.pairwise_append] at increasing
  exact increasing.2.2 earlier member now List.mem_cons_self

/-- A completed call of `ys_uart_recv_handler`: the bytes it was given and what it returned. -/
def handlerCall (edge : Transition) : Option (List UInt8 × Int) :=
  match edge.event, edge.source.pc with
  | .handlerReturn ret, .recvHandler fp len =>
      some (Cells.window edge.source.rx.cells (fp + 2) len.toNat, ret)
  | _, _ => none

theorem handlerCall_returned {s target : State} {ret : Int} {fp : Nat} {len : UInt8}
    (pc : s.pc = .recvHandler fp len) : handlerCall ⟨s, .handlerReturn ret, target⟩ =
      some (Cells.window s.rx.cells (fp + 2) len.toNat, ret) := by
  unfold handlerCall
  dsimp only
  rw [pc]

/-- The completed handler calls, in order. -/
def handlerCalls (edges : List Transition) : List (List UInt8 × Int) :=
  edges.filterMap handlerCall

/-- The payloads for which the handler returned 0, in order. -/
def delivered (edges : List Transition) : List (List UInt8) :=
  (handlerCalls edges).filterMap fun call => if call.2 = 0 then some call.1 else none

end Ser2Ble.YsUart
