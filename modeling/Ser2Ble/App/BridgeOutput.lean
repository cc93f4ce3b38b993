import Ser2Ble.App.BridgeDelivery
import Ser2Ble.YsUart.TransmitQueue

/-!
# From the BLE client to the serial line

Two callers put packets into `uart_tx_fifo`: the writes of the client, and
`ser2ble_at_process`.  What the DMA sends is what they were granted, in that
order, and `ser2ble_at_process` answers each `AT` command once.
-/

namespace Ser2Ble.App

open Library Proj YsUart

/-! ## Answers -/

/-- An answer that is still to be sent is `OK`. -/
def Answering (s : BridgeState) : Prop :=
  ∀ sertxBuf sertxIdx, s.handler = .answer sertxBuf sertxIdx →
    sertxBuf = atAnswer ++ List.replicate 28 0 ∧ sertxIdx = 4

theorem answering_step {source target : BridgeState} {event : BridgeEvent}
    (answering : Answering source) (taken : bridgeStep source event = some target) :
    Answering target := by
  obtain ⟨calls, _, move⟩ := bridgeStep_move taken
  intro sertxBuf sertxIdx handler
  cases move with
  | device | gpio => exact answering sertxBuf sertxIdx handler
  | gapConnected connected => cases connected <;> cases handler
  | atProcess fp len pc before =>
      dsimp only at handler
      rw [afterAtProcess_eq] at handler
      split at handler
      · cases handler
        exact ⟨rfl, rfl⟩
      · cases handler
  | nusSendData | answer | handlerReturn => cases handler

theorem answering_run {flash : Nat → UInt8} {rand : Nat → UInt16} {gpioRead : UInt32}
    {edges : List BridgeTransition} {final : BridgeState}
    (run : BridgeRun flash rand gpioRead edges final) : Answering final := by
  refine run.invariant ?_ answering_step
  intro sertxBuf sertxIdx handler
  cases handler

/-! ## What is granted -/

/-- The packet that a call of `ys_uart_send` along an edge puts into `uart_tx_fifo`. -/
def granted (edge : BridgeTransition) : Option (List UInt8) :=
  if edge.source.app.uart.tx.backlog < 8 then
    match edge.event with
    | .device (.write packet) => some (packet.value.take (min (packet.value.length % 256) 20))
    | .answer => some atAnswer
    | _ => none
  else none

/-- A granted call is an accepted call of the UART module, with what it stores. -/
theorem granted_eq {source target : BridgeState} {event : BridgeEvent}
    (answering : Answering source) (taken : bridgeStep source event = some target) :
    (((appEdge ⟨source, event, target⟩).bind uartEdge).bind acceptedCall).map
        (fun call => clamped call.1 call.2) =
      granted ⟨source, event, target⟩ := by
  obtain ⟨calls, _, move⟩ := bridgeStep_move taken
  have result : ∀ {data : List UInt8} {len : UInt8}, len.toNat ≤ data.length →
      ((if (ysUartSend source.app.uart.tx data len).2 = 0 then some (data, len) else none).map
        fun call => clamped call.1 call.2) =
      if source.app.uart.tx.backlog < 8 then some (clamped data len) else none := by
    intro data len enough
    by_cases room : source.app.uart.tx.backlog < 8
    · rw [ysUartSend_room room enough]
      simp [room]
    · rw [ysUartSend_full data len room]
      simp [room]
  cases move with
  | device event app own stepped =>
      rw [appEdge_some (appEvent_device source own), Option.bind_some, uartEdge]
      cases event with
      | write packet =>
          have enough : (UInt8.ofNat (packet.l2capLen.toNat - 3)).toNat ≤ packet.value.length := by
            rw [packet.narrowed]
            exact Nat.mod_le _ _
          have stored := result enough
          rw [clamped, packet.narrowed] at stored
          exact stored
      | send data len => cases own
      | handlerReturn ret => cases own
      | irq | process | statement => simp [AppEvent.uartEvent, granted, acceptedCall, sendCall]
      | command | keyCheck | scan =>
          cases setBaudCall (⟨source.app, _, app⟩ : AppTransition) <;>
            simp [AppEvent.uartEvent, granted, acceptedCall, sendCall]
  | answer sertxBuf sertxIdx app handler stepped =>
      obtain ⟨rfl, rfl⟩ := answering sertxBuf sertxIdx handler
      rw [appEdge_some (appEvent_answer handler)]
      exact result (by decide)
  | handlerReturn ret app handler stepped =>
      rw [appEdge_some (appEvent_handlerReturn handler)]
      simp [uartEdge, AppEvent.uartEvent, granted, acceptedCall, sendCall]
  | gpio | gapConnected | nusSendData | atProcess =>
      rw [appEdge_none rfl]
      simp [granted]

/-- What the UART module accepts along a run is what was granted. -/
theorem granted_run {flash : Nat → UInt8} {rand : Nat → UInt16} {gpioRead : UInt32}
    {edges : List BridgeTransition} {final : BridgeState}
    (run : BridgeRun flash rand gpioRead edges final) :
    (acceptedCalls (serialEdges edges)).map (fun call => clamped call.1 call.2) =
      edges.filterMap granted := by
  induction run with
  | refl => rfl
  | tail run taken ih =>
      rw [serialEdges_last, acceptedCalls, List.filterMap_append, List.map_append, filterMap_last,
        ← granted_eq (answering_run run) taken, ← ih, acceptedCalls]
      congr 1
      cases (appEdge _).bind uartEdge with
      | none => rfl
      | some edge => cases shown : acceptedCall edge <;> simp [shown]

/--
The slots that the DMA is started on hold at that moment, in order, the packets
granted to BLE writes and to answers; those not yet started are waiting.
-/
theorem serial_output {flash : Nat → UInt8} {rand : Nat → UInt16} {gpioRead : UInt32}
    {edges : List BridgeTransition} {final : BridgeState}
    (run : BridgeRun flash rand gpioRead edges final) :
    startedFrames (serialEdges edges) ++ final.app.uart.waiting =
      (edges.filterMap granted).map frame := by
  rw [(transmitted_run (bridge_refines_uart run).2).frames, ← granted_run run, List.map_map]
  rfl

/-- The command `AT` on its line while the device is not connected, up to the answer. -/
def commandAnswered : List BridgeEvent :=
  [.device (.irq (some 0x41) false 1000), .device (.irq (some 0x54) false 2400),
    .device (.irq (some 0x0D) false 3800), .device (.irq (some 0x0A) false 5200),
    .device .process, .device (.statement 40000), .device (.statement 40001),
    .device (.statement 40002), .gapConnected false, .atProcess, .answer]

theorem commandAnswered_run :
    ∃ edges final, edges.map Edge.event = commandAnswered ∧
      BridgeRun (fun _ => 0xFF) (fun _ => 0x2211) 0x20 edges final ∧
      edges.filterMap granted = [atAnswer] ∧
      fates edges = [(atCommand, .command)] := by
  have enabled : (follow bridgeStep (bridgeInit (fun _ => 0xFF) (fun _ => 0x2211) 0x20)
      commandAnswered).isSome = true := by
    decide +kernel
  obtain ⟨final, labels, run⟩ := enabled_run enabled
  refine ⟨_, final, labels, run, ?_, ?_⟩ <;> decide +kernel

theorem serial_output_commandAnswered :
    ∃ edges final, edges.map Edge.event = commandAnswered ∧
      BridgeRun (fun _ => 0xFF) (fun _ => 0x2211) 0x20 edges final ∧
      startedFrames (serialEdges edges) ++ final.app.uart.waiting = [frame atAnswer] := by
  obtain ⟨edges, final, labels, run, given, _⟩ := commandAnswered_run
  have output := serial_output run
  rw [given] at output
  exact ⟨edges, final, labels, run, output⟩

/-! ## Commands and answers -/

def BridgeEvent.isAnswer : BridgeEvent → Bool
  | .answer => true
  | _ => false

/-- The calls of `ys_uart_send` that `ser2ble_at_process` makes. -/
def answers (edges : List BridgeTransition) : Nat :=
  edges.countP fun edge => edge.event.isAnswer

/--
The packets that went to `ser2ble_at_process` and are the one command it knows,
the four bytes of `AT\r\n`.  A longer line that begins with `AT` passes its tests
but is never answered.
-/
def commands (edges : List BridgeTransition) : Nat :=
  (fates edges).count (atCommand, .command)

/-- The answer that the handler still has to send. -/
def HandlerPc.owed : HandlerPc → Nat
  | .answer _ _ => 1
  | _ => 0

theorem owed_step {source target : BridgeState} {event : BridgeEvent}
    (taken : bridgeStep source event = some target) :
    (if event.isAnswer then 1 else 0) + target.handler.owed =
      source.handler.owed +
        (fate ⟨source, event, target⟩).toList.count (atCommand, .command) := by
  obtain ⟨calls, _, move⟩ := bridgeStep_move taken
  cases move with
  | device | gpio =>
      rw [fate_other] <;> simp [BridgeEvent.isAnswer, bleNusGpioHandler]
  | gapConnected connected fp len pc handler =>
      rw [fate_other] <;> cases connected <;> simp [BridgeEvent.isAnswer, handler, HandlerPc.owed]
  | nusSendData connected status fp len pc handler =>
      have other : pushFate connected status ≠ .command := by
        unfold pushFate
        split
        · split <;> simp
        · simp
      simp [fate, pc, BridgeEvent.isAnswer, handler, HandlerPc.owed, other]
  | atProcess fp len pc handler =>
      rw [afterAtProcess_eq]
      change _ + (if source.packet fp len = atCommand then _ else _ : HandlerPc).owed = _
      by_cases matched : source.packet fp len = atCommand
      · simp [fate, pc, BridgeEvent.isAnswer, handler, HandlerPc.owed, matched]
      · simp [fate, pc, BridgeEvent.isAnswer, handler, HandlerPc.owed, matched]
  | answer sertxBuf sertxIdx app handler =>
      rw [fate_other] <;> simp [BridgeEvent.isAnswer, handler, HandlerPc.owed]
  | handlerReturn ret app handler =>
      rw [fate_other] <;> simp [BridgeEvent.isAnswer, handler, HandlerPc.owed]

/-- Each `AT\r\n` that comes while the device is not connected is answered once. -/
theorem commands_answered_once {flash : Nat → UInt8} {rand : Nat → UInt16} {gpioRead : UInt32}
    {edges : List BridgeTransition} {final : BridgeState}
    (run : BridgeRun flash rand gpioRead edges final) :
    answers edges + final.handler.owed = commands edges := by
  induction run with
  | refl => rfl
  | tail run taken ih =>
      have last := owed_step taken
      rw [answers, List.countP_append, List.countP_singleton, commands, fates, filterMap_last,
        List.count_append]
      rw [answers, commands, fates] at ih
      dsimp only
      omega

theorem commands_answered_once_commandAnswered :
    ∃ edges final, edges.map Edge.event = commandAnswered ∧
      BridgeRun (fun _ => 0xFF) (fun _ => 0x2211) 0x20 edges final ∧
      answers edges + final.handler.owed = 1 := by
  obtain ⟨edges, final, labels, run, _, met⟩ := commandAnswered_run
  have answered := commands_answered_once run
  rw [commands, met] at answered
  exact ⟨edges, final, labels, run, answered⟩

end Ser2Ble.App
