import Ser2Ble.App.MainLoop
import Ser2Ble.YsUart.ReceiveStream

/-!
# The bridge of `vendor/826x_ser2ble/ser2ble.c`

`ys_uart_recv_handler` hands a packet to the BLE stack while the device is
connected, and to `ser2ble_at_process` while it is not.  The link state is read
twice, once by the handler and once by `ble_nus_send_data`, and interrupts may
come between any two of the steps below.
-/

namespace Ser2Ble.App

open Library Proj YsRom YsUart

/-! ## The model -/

/-- `NUS_Server2Client_INPUT_DP_H`. -/
def nusServer2ClientInputDpH : UInt16 := 20

/-- What the handler calls in the closed BLE stack. -/
inductive StackCall where
  | blsAttPushNotifyData (attHandle : UInt16) (p : List UInt8)
  | blsPmSetManualLatency (latency : UInt16)
  deriving DecidableEq, Repr

/-- `sertx_buf[sertx_idx++] = byte`. -/
def sertxPut (sertx : List UInt8 × UInt8) (byte : UInt8) : List UInt8 × UInt8 :=
  (sertx.1.set sertx.2.toNat byte, sertx.2 + 1)

/-- `ser2ble_at_process` up to its call of `ys_uart_send`: `sertx_buf` and `sertx_idx`. -/
def ser2bleAtProcess (cmd : Nat → UInt8) (len : UInt8) : List UInt8 × UInt8 :=
  let sertx : List UInt8 × UInt8 := (List.replicate 32 0, 0)
  if len < 4 then sertx
  else if cmd 0 ≠ 0x41 ∨ cmd 1 ≠ 0x54 ∨
      cmd (len.toNat - 2) ≠ 0x0D ∨ cmd (len.toNat - 1) ≠ 0x0A then sertx
  else
    let len := len - 4
    let sertx := if len = 0 then sertxPut (sertxPut sertx 0x4F) 0x4B else sertx
    if 0 < sertx.2 then sertxPut (sertxPut sertx 0x0D) 0x0A else sertx

/-- What `ble_nus_send_data` calls and returns; `status` is what the stack answers. -/
def bleNusSendData (connected : Bool) (status : UInt8) (data : List UInt8) :
    List StackCall × Int :=
  if connected then ([.blsAttPushNotifyData nusServer2ClientInputDpH data], status.toNat)
  else ([], 0)

/-- Where `ys_uart_recv_handler` goes on, or begins when it is called next. -/
inductive HandlerPc where
  | gapConnected
  | nusSendData
  | atProcess
  /-- before the call of `ys_uart_send` in `ser2ble_at_process` -/
  | answer (sertxBuf : List UInt8) (sertxIdx : UInt8)
  | done (ret : Int)
  deriving DecidableEq, Repr

/-- The device with its handler and the two pins that BLE writes drive. -/
structure BridgeState where
  app : AppState
  handler : HandlerPc
  serGpio0 : Bool
  serGpio1 : Bool

/-- `data` in the handler; `fp` is the slot of the packet. -/
def BridgeState.data (s : BridgeState) (fp : Nat) : Nat → UInt8 :=
  fun index => s.app.uart.rx.cells (fp + 2 + index)

/-- `ser2ble_init`; `gpio_init` has left the pins low. -/
def bridgeInit (flash : Nat → UInt8) (rand : Nat → UInt16) (gpioRead : UInt32) : BridgeState where
  app := ser2bleInit flash rand gpioRead
  handler := .gapConnected
  serGpio0 := false
  serGpio1 := false

/-- `ble_nus_gpio_handler`. -/
def bleNusGpioHandler (s : BridgeState) (data : UInt8) : BridgeState :=
  { s with serGpio0 := decide (data &&& 0x01 ≠ 0), serGpio1 := decide (data &&& 0x02 ≠ 0) }

inductive BridgeEvent where
  /-- any step of the device but those of the handler -/
  | device (event : AppEvent)
  /-- `nus_onGpioData`; `behind` is the byte of the buffer after the header of an empty write -/
  | gpio (packet : RfPacketAttWrite) (behind : UInt8)
  /-- the test of the handler: the link state -/
  | gapConnected (connected : Bool)
  /-- `ble_nus_send_data` and `bls_pm_setManualLatency`: the link state, and what the stack answers -/
  | nusSendData (connected : Bool) (status : UInt8)
  /-- the tests of `ser2ble_at_process` -/
  | atProcess
  /-- its call of `ys_uart_send` -/
  | answer
  | handlerReturn

/-- The events of the device that are steps of the handler. -/
def AppEvent.ofHandler : AppEvent → Bool
  | .send _ _ => true
  | .handlerReturn _ => true
  | _ => false

/-- The event of the device that an event of the bridge is. -/
def BridgeState.appEvent (s : BridgeState) : BridgeEvent → Option AppEvent
  | .device event => if event.ofHandler then none else some event
  | .answer =>
      match s.handler with
      | .answer sertxBuf sertxIdx => some (.send sertxBuf sertxIdx)
      | _ => none
  | .handlerReturn =>
      match s.handler with
      | .done ret => some (.handlerReturn ret)
      | _ => none
  | .gpio _ _ | .gapConnected _ | .nusSendData _ _ | .atProcess => none

/-- The step of the device that an event is; the handler goes on at `handler`. -/
def deviceStep (s : BridgeState) (event : BridgeEvent) (handler : HandlerPc) :
    Option (BridgeState × List StackCall) :=
  ((s.appEvent event).bind (appStep s.app)).map fun app =>
    ({ s with app := app, handler := handler }, [])

/-- The place of the handler after the tests of `ser2ble_at_process`. -/
def afterAtProcess (sertx : List UInt8 × UInt8) : HandlerPc :=
  if 0 < sertx.2 then .answer sertx.1 sertx.2 else .done 0

/-- One step of the bridge: the new state, and the calls into the stack. -/
def bridgeExec (s : BridgeState) : BridgeEvent → Option (BridgeState × List StackCall)
  | .device event => deviceStep s (.device event) s.handler
  | .gpio packet behind =>
      if s.app.place = .sdk then some (bleNusGpioHandler s (packet.firstByte behind), []) else none
  | .gapConnected connected =>
      match s.app.uart.pc, s.handler with
      | .recvHandler _ _, .gapConnected =>
          some ({ s with handler := if connected then .nusSendData else .atProcess }, [])
      | _, _ => none
  | .nusSendData connected status =>
      match s.app.uart.pc, s.handler with
      | .recvHandler fp len, .nusSendData =>
          let sent := bleNusSendData connected status (Cells.window (s.data fp) 0 len.toNat)
          some ({ s with handler := .done sent.2 }, sent.1 ++ [.blsPmSetManualLatency 0])
      | _, _ => none
  | .atProcess =>
      match s.app.uart.pc, s.handler with
      | .recvHandler fp len, .atProcess =>
          some ({ s with handler := afterAtProcess (ser2bleAtProcess (s.data fp) len) }, [])
      | _, _ => none
  | .answer => deviceStep s .answer (.done 0)
  | .handlerReturn => deviceStep s .handlerReturn .gapConnected

def bridgeStep (s : BridgeState) (event : BridgeEvent) : Option BridgeState :=
  (bridgeExec s event).map Prod.fst

abbrev BridgeTransition := Edge BridgeState BridgeEvent

/-- The calls into the stack along an edge, in order. -/
def stackCalls (edge : BridgeTransition) : List StackCall :=
  (bridgeExec edge.source edge.event).elim [] Prod.snd

/-- The runs of the bridge from power-on. -/
abbrev BridgeRun (flash : Nat → UInt8) (rand : Nat → UInt16) (gpioRead : UInt32) :
    List BridgeTransition → BridgeState → Prop :=
  Run bridgeStep (bridgeInit flash rand gpioRead)

/-! ## Every step, once -/

/-- The ways the bridge can go on. -/
inductive BridgeMove (s : BridgeState) : BridgeEvent → BridgeState → List StackCall → Prop where
  | device (event : AppEvent) (app : AppState) (own : event.ofHandler = false)
      (taken : appStep s.app event = some app) :
      BridgeMove s (.device event) { s with app := app } []
  | gpio (packet : RfPacketAttWrite) (behind : UInt8) (place : s.app.place = .sdk) :
      BridgeMove s (.gpio packet behind) (bleNusGpioHandler s (packet.firstByte behind)) []
  | gapConnected (connected : Bool) (fp : Nat) (len : UInt8)
      (pc : s.app.uart.pc = .recvHandler fp len) (handler : s.handler = .gapConnected) :
      BridgeMove s (.gapConnected connected)
        { s with handler := if connected then .nusSendData else .atProcess } []
  | nusSendData (connected : Bool) (status : UInt8) (fp : Nat) (len : UInt8)
      (pc : s.app.uart.pc = .recvHandler fp len) (handler : s.handler = .nusSendData) :
      BridgeMove s (.nusSendData connected status)
        { s with handler :=
            .done (bleNusSendData connected status (Cells.window (s.data fp) 0 len.toNat)).2 }
        ((bleNusSendData connected status (Cells.window (s.data fp) 0 len.toNat)).1 ++
          [.blsPmSetManualLatency 0])
  | atProcess (fp : Nat) (len : UInt8) (pc : s.app.uart.pc = .recvHandler fp len)
      (handler : s.handler = .atProcess) :
      BridgeMove s .atProcess
        { s with handler := afterAtProcess (ser2bleAtProcess (s.data fp) len) } []
  | answer (sertxBuf : List UInt8) (sertxIdx : UInt8) (app : AppState)
      (handler : s.handler = .answer sertxBuf sertxIdx)
      (taken : appStep s.app (.send sertxBuf sertxIdx) = some app) :
      BridgeMove s .answer { s with app := app, handler := .done 0 } []
  | handlerReturn (ret : Int) (app : AppState) (handler : s.handler = .done ret)
      (taken : appStep s.app (.handlerReturn ret) = some app) :
      BridgeMove s .handlerReturn { s with app := app, handler := .gapConnected } []

theorem deviceStep_some {s target : BridgeState} {event : BridgeEvent} {handler : HandlerPc}
    {calls : List StackCall} (taken : deviceStep s event handler = some (target, calls)) :
    ∃ appEvent app, s.appEvent event = some appEvent ∧ appStep s.app appEvent = some app ∧
      target = { s with app := app, handler := handler } ∧ calls = [] := by
  obtain ⟨app, moved, same⟩ := Option.map_eq_some_iff.mp taken
  obtain ⟨appEvent, named, stepped⟩ := Option.bind_eq_some_iff.mp moved
  cases same
  exact ⟨appEvent, app, named, stepped, rfl, rfl⟩

theorem bridgeExec_move {s target : BridgeState} {event : BridgeEvent} {calls : List StackCall}
    (taken : bridgeExec s event = some (target, calls)) : BridgeMove s event target calls := by
  cases event with
  | device event =>
      obtain ⟨_, app, named, stepped, rfl, rfl⟩ := deviceStep_some taken
      simp only [BridgeState.appEvent, Option.ite_none_left_eq_some, Bool.not_eq_true] at named
      obtain ⟨own, same⟩ := named
      cases same
      exact .device event app own stepped
  | gpio packet behind =>
      obtain ⟨place, same⟩ := Option.ite_none_right_eq_some.mp taken
      cases same
      exact .gpio packet behind place
  | gapConnected connected =>
      simp only [bridgeExec] at taken
      split at taken
      · next fp len pc handler =>
          cases taken
          exact .gapConnected connected fp len pc handler
      · cases taken
  | nusSendData connected status =>
      simp only [bridgeExec] at taken
      split at taken
      · next fp len pc handler =>
          cases taken
          exact .nusSendData connected status fp len pc handler
      · cases taken
  | atProcess =>
      simp only [bridgeExec] at taken
      split at taken
      · next fp len pc handler =>
          cases taken
          exact .atProcess fp len pc handler
      · cases taken
  | answer =>
      obtain ⟨_, app, named, stepped, rfl, rfl⟩ := deviceStep_some taken
      simp only [BridgeState.appEvent] at named
      split at named
      · next sertxBuf sertxIdx handler =>
          cases named
          exact .answer sertxBuf sertxIdx app handler stepped
      · cases named
  | handlerReturn =>
      obtain ⟨_, app, named, stepped, rfl, rfl⟩ := deviceStep_some taken
      simp only [BridgeState.appEvent] at named
      split at named
      · next ret handler =>
          cases named
          exact .handlerReturn ret app handler stepped
      · cases named

/-- A step with the calls into the stack that its edge shows. -/
theorem bridgeStep_move {s target : BridgeState} {event : BridgeEvent}
    (taken : bridgeStep s event = some target) :
    ∃ calls, stackCalls ⟨s, event, target⟩ = calls ∧ BridgeMove s event target calls := by
  obtain ⟨⟨reached, calls⟩, executed, rfl⟩ := Option.map_eq_some_iff.mp taken
  refine ⟨calls, ?_, bridgeExec_move executed⟩
  rw [stackCalls, executed]
  rfl

/-! ## The bridge drives the device -/

/-- The step of the device along an edge. -/
def appEdge (edge : BridgeTransition) : Option AppTransition :=
  (edge.source.appEvent edge.event).map fun event => ⟨edge.source.app, event, edge.target.app⟩

/-- The edges of the device along a run of the bridge. -/
def appEdges (edges : List BridgeTransition) : List AppTransition :=
  edges.filterMap appEdge

/-- The edges of the UART module along a run of the bridge. -/
def serialEdges (edges : List BridgeTransition) : List YsUart.Transition :=
  uartEdges (appEdges edges)

/-- The events of the handler that are none of the device. -/
theorem appEdge_none {edge : BridgeTransition} (silent : edge.source.appEvent edge.event = none) :
    appEdge edge = none := by
  rw [appEdge, silent, Option.map_none]

theorem appEdge_some {edge : BridgeTransition} {event : AppEvent}
    (named : edge.source.appEvent edge.event = some event) :
    appEdge edge = some ⟨edge.source.app, event, edge.target.app⟩ := by
  rw [appEdge, named, Option.map_some]

theorem appEvent_device (s : BridgeState) {event : AppEvent} (own : event.ofHandler = false) :
    s.appEvent (.device event) = some event := by
  simp only [BridgeState.appEvent, own, Bool.false_eq_true, if_false]

theorem appEvent_answer {s : BridgeState} {sertxBuf : List UInt8} {sertxIdx : UInt8}
    (handler : s.handler = .answer sertxBuf sertxIdx) :
    s.appEvent .answer = some (.send sertxBuf sertxIdx) := by
  simp only [BridgeState.appEvent, handler]

theorem appEvent_handlerReturn {s : BridgeState} {ret : Int} (handler : s.handler = .done ret) :
    s.appEvent .handlerReturn = some (.handlerReturn ret) := by
  simp only [BridgeState.appEvent, handler]

/-- A step of the bridge is a step of the device, or leaves the device alone. -/
theorem bridgeStep_app {source target : BridgeState} {event : BridgeEvent}
    (taken : bridgeStep source event = some target) :
    Run appStep source.app (appEdge ⟨source, event, target⟩).toList target.app := by
  obtain ⟨calls, _, move⟩ := bridgeStep_move taken
  cases move with
  | device event app own stepped =>
      rw [appEdge_some (appEvent_device source own)]
      exact Run.refl.tail stepped
  | answer sertxBuf sertxIdx app handler stepped =>
      rw [appEdge_some (appEvent_answer handler)]
      exact Run.refl.tail stepped
  | handlerReturn ret app handler stepped =>
      rw [appEdge_some (appEvent_handlerReturn handler)]
      exact Run.refl.tail stepped
  | gpio | gapConnected | nusSendData | atProcess => exact .refl

/-- Every run of the bridge is a run of the device, with this handler for the unknown one. -/
theorem bridge_refines_app {flash : Nat → UInt8} {rand : Nat → UInt16} {gpioRead : UInt32}
    {edges : List BridgeTransition} {final : BridgeState}
    (run : BridgeRun flash rand gpioRead edges final) :
    AppRun flash rand gpioRead (appEdges edges) final.app :=
  run.simulated BridgeState.app appEdge bridgeStep_app

/-- And with it a run of the UART module. -/
theorem bridge_refines_uart {flash : Nat → UInt8} {rand : Nat → UInt16} {gpioRead : UInt32}
    {edges : List BridgeTransition} {final : BridgeState}
    (run : BridgeRun flash rand gpioRead edges final) : Parked final.app ∧
      UartRun (ysRomLoadDeviceConfig .ser2ble flash).1.baudrate (serialEdges edges)
        final.app.uart :=
  app_refines_uart (bridge_refines_app run)

theorem serialEdges_last (edges : List BridgeTransition) (edge : BridgeTransition) :
    serialEdges (edges ++ [edge]) =
      serialEdges edges ++ ((appEdge edge).bind uartEdge).toList := by
  rw [serialEdges, uartEdges, appEdges, List.filterMap_filterMap, serialEdges, uartEdges, appEdges,
    List.filterMap_filterMap]
  exact filterMap_last _ edges edge

/-! ## `ser2ble_at_process` -/

/-- The only command that is answered. -/
def atCommand : List UInt8 := [0x41, 0x54, 0x0D, 0x0A]

/-- The answer, `OK` and a line end. -/
def atAnswer : List UInt8 := [0x4F, 0x4B, 0x0D, 0x0A]

/-- `AT` alone on its line is answered with `OK`, everything else with nothing. -/
theorem ser2bleAtProcess_eq (cmd : Nat → UInt8) (len : UInt8) :
    ser2bleAtProcess cmd len =
      if Cells.window cmd 0 len.toNat = atCommand then (atAnswer ++ List.replicate 28 0, 4)
      else (List.replicate 32 0, 0) := by
  by_cases four : len = 4
  · subst four
    have command : Cells.window cmd 0 (4 : UInt8).toNat = atCommand ↔
        cmd 0 = 0x41 ∧ cmd 1 = 0x54 ∧ cmd 2 = 0x0D ∧ cmd 3 = 0x0A := by
      change [cmd 0, cmd 1, cmd 2, cmd 3] = atCommand ↔ _
      simp [atCommand]
    rw [ser2bleAtProcess, if_neg (by decide)]
    change (if cmd 0 ≠ 0x41 ∨ cmd 1 ≠ 0x54 ∨ cmd 2 ≠ 0x0D ∨ cmd 3 ≠ 0x0A then _ else _) = _
    by_cases matched : cmd 0 = 0x41 ∧ cmd 1 = 0x54 ∧ cmd 2 = 0x0D ∧ cmd 3 = 0x0A
    · rw [if_pos (command.mpr matched), if_neg (by tauto)]
      decide
    · rw [if_neg (command.not.mpr matched), if_pos (by tauto)]
  · have other : Cells.window cmd 0 len.toNat ≠ atCommand := by
      intro same
      have length := congrArg List.length same
      rw [Cells.window_length] at length
      exact four (UInt8.toNat_inj.mp length)
    have rest : ¬ len < 4 → len - 4 ≠ 0 := by
      intro _ zero
      have back := congrArg (· + 4) zero
      rw [UInt8.sub_add_cancel] at back
      exact four back
    rw [if_neg other, ser2bleAtProcess]
    split
    · rfl
    · next enough =>
        split
        · rfl
        · dsimp only
          rw [if_neg (rest enough)]
          rfl

theorem afterAtProcess_eq (cmd : Nat → UInt8) (len : UInt8) :
    afterAtProcess (ser2bleAtProcess cmd len) =
      if Cells.window cmd 0 len.toNat = atCommand then .answer (atAnswer ++ List.replicate 28 0) 4
      else .done 0 := by
  rw [ser2bleAtProcess_eq]
  split <;> rfl

end Ser2Ble.App
