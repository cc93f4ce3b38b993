import Ser2Ble.BleDrv.DeviceAddress
import Ser2Ble.YsRom.RoundTrip
import Ser2Ble.YsSwitch.Scan
import Ser2Ble.YsUart.Machine

/-!
# The main loop of `vendor/826x_ser2ble`

`main` repeats `blt_sdk_main_loop`, which runs the BLE write callbacks,
`ser2ble_process` and `ys_switch_scan`.  The UART module keeps its own
interleaving with the interrupt; the callbacks and the button code are atomic,
since the interrupt touches none of their variables.
-/

namespace Ser2Ble.App

open Library Proj YsRom YsSwitch YsUart BleDrv

/-! ## The model -/

/-- The levels of the pins `BAUD1_LED_PIN` to `BAUD3_LED_PIN`. -/
structure Leds where
  baud1 : Bool
  baud2 : Bool
  baud3 : Bool
  deriving DecidableEq, Repr

/-- What the main loop is doing. -/
inductive Place where
  | sdk
  | process
  | scan
  deriving DecidableEq, Repr

/-- The variables of `ser2ble.c` and of the modules that it drives. -/
structure AppState where
  uart : YsUart.State
  deviceConfig : DeviceCfg
  flash : Nat → UInt8
  leds : Leds
  keyTick : UInt32
  /-- `sw_tbl[SW_CFG]`; its only action is `ser2ble_cfg_key_handler` -/
  switch : SwitchSts Unit
  place : Place

/-- `ser2ble_show_baudrate`. -/
def ser2bleShowBaudrate (baud : UInt8) : Leds :=
  let baud := baud + 1
  ⟨decide (baud &&& 0x01 = 0), decide (baud &&& 0x02 = 0), decide (baud &&& 0x04 = 0)⟩

/--
`main` up to its loop, and in it `ser2ble_init`; `rand` are the random numbers
of `ble_drv_init`, `gpioRead` the level of the switch.
-/
def ser2bleInit (flash : Nat → UInt8) (rand : Nat → UInt16) (gpioRead : UInt32) : AppState :=
  let loaded := ysRomLoadDeviceConfig .ser2ble flash
  { uart := ysUartInit powerOn loaded.1.baudrate
    deviceConfig := loaded.1
    flash := NorFlash.run sectorSize loaded.2 (bleDrvInit loaded.2 rand).2
    leds := ser2bleShowBaudrate loaded.1.baudrate
    keyTick := 0
    switch := (ysSwitchRegister ysSwitchInit 0 swCfgPin (some ()) gpioRead).1
    place := .sdk }

/-- `ys_rom_save_device_config(&device_config)`. -/
def AppState.save (s : AppState) : AppState :=
  { s with flash := NorFlash.run sectorSize s.flash (ysRomSaveDeviceConfig s.deviceConfig) }

def AppState.setBaudrate (s : AppState) (baud : UInt8) : AppState :=
  { s with deviceConfig := { s.deviceConfig with baudrate := baud } }

/-- `ble_nus_cmd_handler`; `data` is what the pointer argument points at. -/
def bleNusCmdHandler (s : AppState) (data : List UInt8) (len : UInt8) : AppState :=
  if len = 2 ∧ data.getD 0 0 = 0x0B then
    let baud := data.getD 1 0
    if baud ≤ UartBaudTypeDef.uartBaud230400.code then
      let s := { s with uart := ysUartSetBaud s.uart baud }
      let s := if s.deviceConfig.baudrate ≠ baud then (s.setBaudrate baud).save else s
      { s with leds := ser2bleShowBaudrate s.deviceConfig.baudrate }
    else s
  else s

/-- `p->l2capLen - 3` is narrowed to the `u8` parameter of the handler. -/
def nusOnCommandData (s : AppState) (p : RfPacketAttWrite) : AppState :=
  bleNusCmdHandler s p.value (UInt8.ofNat (p.l2capLen.toNat - 3))

/-- What the button code calls outside of `ser2ble.c`. -/
inductive ButtonCall where
  | bleDisconnect
  | ysUartSetBaud (baud : UInt8)
  deriving DecidableEq, Repr

/-- The next rate in `ser2ble_cfg_key_handler`, after the last one the first. -/
def nextBaud (baud : UInt8) : UInt8 :=
  if UartBaudTypeDef.uartBaud230400.code < baud + 1 then UartBaudTypeDef.uartBaud9600.code
  else baud + 1

/-- `ser2ble_cfg_key_handler`; the clock is read on a press only. -/
def ser2bleCfgKeyHandler (s : AppState) (val : UInt8) (now : Nat) :
    AppState × Option ButtonCall :=
  if val = 0 then ({ s with keyTick := clockTime now ||| 1 }, none)
  else if s.keyTick ≠ 0 then
    let baud := nextBaud s.deviceConfig.baudrate
    let s := { s with keyTick := 0 }.setBaudrate baud
    let s := { s with uart := ysUartSetBaud s.uart baud }
    let s := { s with leds := ser2bleShowBaudrate baud }
    (s.save, some (.ysUartSetBaud baud))
  else (s, none)

/-- `ser2ble_process` after the return of `ys_uart_process`; the clock is read while `key_tick` is set. -/
def keyCheck (s : AppState) (now : Nat) : AppState × Option ButtonCall :=
  if s.keyTick ≠ 0 ∧ clockTimeExceed now s.keyTick 3000000 = true then
    ({ s with keyTick := 0 }, some .bleDisconnect)
  else (s, none)

/-- `ys_switch_scan` with its action. -/
def switchScan (s : AppState) (gpioRead : UInt32) (now : Nat) : AppState × Option ButtonCall :=
  let scanned := ysSwitchScan s.switch gpioRead
  let s := { s with switch := scanned.1 }
  match scanned.2 with
  | some (_, val) => ser2bleCfgKeyHandler s val now
  | none => (s, none)

inductive AppEvent where
  /-- `irq_handler`: the byte received, if any, and whether a DMA transmission has ended -/
  | irq (byte : Option UInt8) (txDone : Bool) (now : Nat)
  /-- `nus_onReceiveData` -/
  | write (packet : RfPacketAttWrite)
  /-- `nus_onCommandData` -/
  | command (packet : RfPacketAttWrite)
  /-- the call of `ser2ble_process`, and of `ys_uart_process` in it -/
  | process
  /-- the next statement of the running `ys_uart_process` -/
  | statement (now : Nat)
  /-- `ser2ble_at_process` answers -/
  | send (data : List UInt8) (len : UInt8)
  | handlerReturn (ret : Int)
  | keyCheck (now : Nat)
  | scan (gpioRead : UInt32) (now : Nat)

/-- A step of the UART module that makes no call of the button code. -/
def uartStep (s : AppState) (event : YsUart.Event) : Option (AppState × Option ButtonCall) :=
  (YsUart.step s.uart event).map fun uart => ({ s with uart := uart }, none)

/-- One step of the device: the new state, and the call that the button code made. -/
def exec (s : AppState) : AppEvent → Option (AppState × Option ButtonCall)
  | .irq byte txDone now => uartStep s (.irq byte txDone now)
  | .write packet => if s.place = .sdk then uartStep s (.attWrite packet) else none
  | .command packet => if s.place = .sdk then some (nusOnCommandData s packet, none) else none
  | .process => if s.place = .sdk then uartStep { s with place := .process } .process else none
  | .statement now => if s.place = .process then uartStep s (.statement now) else none
  | .send data len =>
      if s.place = .process ∧ s.uart.pc ≠ .outside then uartStep s (.send data len) else none
  | .handlerReturn ret => if s.place = .process then uartStep s (.handlerReturn ret) else none
  | .keyCheck now =>
      if s.place = .process ∧ s.uart.pc = .outside then
        some (keyCheck { s with place := .scan } now)
      else none
  | .scan gpioRead now =>
      if s.place = .scan then some (switchScan { s with place := .sdk } gpioRead now) else none

def appStep (s : AppState) (event : AppEvent) : Option AppState :=
  (exec s event).map Prod.fst

abbrev AppTransition := Edge AppState AppEvent

/-- The call of the button code along an edge. -/
def buttonCall (edge : AppTransition) : Option ButtonCall :=
  (exec edge.source edge.event).bind Prod.snd

/-- The runs of the device from power-on. -/
abbrev AppRun (flash : Nat → UInt8) (rand : Nat → UInt16) (gpioRead : UInt32) :
    List AppTransition → AppState → Prop :=
  Run appStep (ser2bleInit flash rand gpioRead)

/-! ## Every step, once -/

/-- The event of the UART module that an event of the device is. -/
def AppEvent.uartEvent : AppEvent → Option YsUart.Event
  | .irq byte txDone now => some (.irq byte txDone now)
  | .write packet => some (.attWrite packet)
  | .process => some .process
  | .statement now => some (.statement now)
  | .send data len => some (.send data len)
  | .handlerReturn ret => some (.handlerReturn ret)
  | .command _ | .keyCheck _ | .scan _ _ => none

/-- The ways the device can go on. -/
inductive Move (s : AppState) : AppEvent → AppState → Option ButtonCall → Prop where
  | uart {event : AppEvent} {uartEvent : YsUart.Event} {uart : YsUart.State} (place : Place)
      (named : event.uartEvent = some uartEvent) (taken : YsUart.step s.uart uartEvent = some uart)
      (away : place ≠ .process → s.place = place ∧ uart.pc = s.uart.pc) :
      Move s event { s with uart := uart, place := place } none
  | command (packet : RfPacketAttWrite) (place : s.place = .sdk) :
      Move s (.command packet) (nusOnCommandData s packet) none
  | keyCheck (now : Nat) (place : s.place = .process) (outside : s.uart.pc = .outside) :
      Move s (.keyCheck now) (keyCheck { s with place := .scan } now).1
        (keyCheck { s with place := .scan } now).2
  | scan (gpioRead : UInt32) (now : Nat) (place : s.place = .scan) :
      Move s (.scan gpioRead now) (switchScan { s with place := .sdk } gpioRead now).1
        (switchScan { s with place := .sdk } gpioRead now).2

/-- A step of the UART module as a move, from a place that it may have changed. -/
theorem move_uart {s target : AppState} {event : AppEvent} {uartEvent : YsUart.Event}
    {call : Option ButtonCall} (place : Place) (named : event.uartEvent = some uartEvent)
    (away : ∀ uart, YsUart.step s.uart uartEvent = some uart → place ≠ .process →
      s.place = place ∧ uart.pc = s.uart.pc)
    (taken : uartStep { s with place := place } uartEvent = some (target, call)) :
    Move s event target call := by
  obtain ⟨uart, moved, same⟩ := Option.map_eq_some_iff.mp taken
  cases same
  exact .uart place named moved (away uart moved)

theorem exec_move {s target : AppState} {event : AppEvent} {call : Option ButtonCall}
    (taken : exec s event = some (target, call)) : Move s event target call := by
  cases event with
  | irq byte txDone now =>
      refine move_uart s.place rfl (fun uart moved _ => ⟨rfl, ?_⟩) taken
      cases moved
      rfl
  | write packet =>
      obtain ⟨place, moved⟩ := Option.ite_none_right_eq_some.mp taken
      refine move_uart s.place rfl (fun uart moved _ => ⟨rfl, ?_⟩) moved
      obtain ⟨_, same⟩ := Option.ite_none_right_eq_some.mp moved
      cases same
      rfl
  | command packet =>
      obtain ⟨place, moved⟩ := Option.ite_none_right_eq_some.mp taken
      cases moved
      exact .command packet place
  | process =>
      obtain ⟨_, moved⟩ := Option.ite_none_right_eq_some.mp taken
      exact move_uart .process rfl (fun _ _ away => absurd rfl away) moved
  | statement now =>
      obtain ⟨place, moved⟩ := Option.ite_none_right_eq_some.mp taken
      exact move_uart s.place rfl (fun _ _ away => absurd place away) moved
  | send data len =>
      obtain ⟨⟨place, _⟩, moved⟩ := Option.ite_none_right_eq_some.mp taken
      exact move_uart s.place rfl (fun _ _ away => absurd place away) moved
  | handlerReturn ret =>
      obtain ⟨place, moved⟩ := Option.ite_none_right_eq_some.mp taken
      exact move_uart s.place rfl (fun _ _ away => absurd place away) moved
  | keyCheck now =>
      obtain ⟨⟨place, outside⟩, moved⟩ := Option.ite_none_right_eq_some.mp taken
      obtain ⟨rfl, rfl⟩ := Prod.ext_iff.mp (Option.some.inj moved)
      exact .keyCheck now place outside
  | scan gpioRead now =>
      obtain ⟨place, moved⟩ := Option.ite_none_right_eq_some.mp taken
      obtain ⟨rfl, rfl⟩ := Prod.ext_iff.mp (Option.some.inj moved)
      exact .scan gpioRead now place

/-- A step with the call that its edge shows. -/
theorem appStep_move {s target : AppState} {event : AppEvent}
    (taken : appStep s event = some target) :
    ∃ call, buttonCall ⟨s, event, target⟩ = call ∧ Move s event target call := by
  obtain ⟨⟨reached, call⟩, executed, rfl⟩ := Option.map_eq_some_iff.mp taken
  refine ⟨call, ?_, exec_move executed⟩
  rw [buttonCall, executed]
  rfl

/-! ## The device drives the UART module -/

/-- While the main loop is elsewhere, `ys_uart_process` is not running. -/
def Parked (s : AppState) : Prop :=
  s.place ≠ .process → s.uart.pc = .outside

theorem keyCheck_frame (s : AppState) (now : Nat) :
    (keyCheck s now).1 = { s with keyTick := (keyCheck s now).1.keyTick } := by
  unfold keyCheck
  split <;> rfl

/-- The argument of `ys_uart_set_baud` in `nus_onCommandData`, if it is called. -/
def commandBaud (p : RfPacketAttWrite) : Option UInt8 :=
  if UInt8.ofNat (p.l2capLen.toNat - 3) = 2 ∧ p.value.getD 0 0 = 0x0B ∧
      p.value.getD 1 0 ≤ UartBaudTypeDef.uartBaud230400.code then some (p.value.getD 1 0)
  else none

def ButtonCall.baud : ButtonCall → Option UInt8
  | .bleDisconnect => none
  | .ysUartSetBaud baud => some baud

/-- The argument of `ys_uart_set_baud` along an edge, if it is called. -/
def setBaudCall (edge : AppTransition) : Option UInt8 :=
  match edge.event with
  | .command packet => commandBaud packet
  | _ => (buttonCall edge).bind ButtonCall.baud

/-- The step of the UART module along an edge. -/
def uartEdge (edge : AppTransition) : Option YsUart.Transition :=
  (edge.event.uartEvent.or ((setBaudCall edge).map .setBaud)).map fun event =>
    ⟨edge.source.uart, event, edge.target.uart⟩

/-- The edges of the UART module along a run of the device. -/
def uartEdges (edges : List AppTransition) : List YsUart.Transition :=
  edges.filterMap uartEdge

theorem nusOnCommandData_uart (s : AppState) (packet : RfPacketAttWrite) :
    (nusOnCommandData s packet).uart = (commandBaud packet).elim s.uart (ysUartSetBaud s.uart) := by
  by_cases selects : UInt8.ofNat (packet.l2capLen.toNat - 3) = 2 ∧ packet.value.getD 0 0 = 0x0B
  · by_cases known : packet.value.getD 1 0 ≤ UartBaudTypeDef.uartBaud230400.code
    · have called : commandBaud packet = some (packet.value.getD 1 0) :=
        if_pos ⟨selects.1, selects.2, known⟩
      rw [called, nusOnCommandData, bleNusCmdHandler, if_pos selects]
      dsimp only
      rw [if_pos known]
      split <;> rfl
    · have quiet : commandBaud packet = none := if_neg fun all => known all.2.2
      rw [quiet, nusOnCommandData, bleNusCmdHandler, if_pos selects]
      dsimp only
      rw [if_neg known]
      rfl
  · have quiet : commandBaud packet = none := if_neg fun all => selects ⟨all.1, all.2.1⟩
    rw [quiet, nusOnCommandData, bleNusCmdHandler, if_neg selects]
    rfl

theorem switchScan_uart (s : AppState) (gpioRead : UInt32) (now : Nat) :
    (switchScan s gpioRead now).1.uart =
      ((switchScan s gpioRead now).2.bind ButtonCall.baud).elim s.uart (ysUartSetBaud s.uart) := by
  unfold switchScan ser2bleCfgKeyHandler
  dsimp only
  split
  · split
    · rfl
    · split <;> rfl
  · rfl

/-- A call of `ys_uart_set_baud` from outside `ys_uart_process` is a step of the UART module. -/
theorem setBaud_run {uart : YsUart.State} (outside : uart.pc = .outside) (called : Option UInt8) :
    (called.elim uart (ysUartSetBaud uart)).pc = .outside ∧
      Run YsUart.step uart ((called.map YsUart.Event.setBaud).map fun event =>
        ⟨uart, event, called.elim uart (ysUartSetBaud uart)⟩).toList
        (called.elim uart (ysUartSetBaud uart)) := by
  cases called with
  | none => exact ⟨outside, .refl⟩
  | some baud =>
      have enabled : YsUart.step uart (.setBaud baud) = some (ysUartSetBaud uart baud) :=
        if_pos outside
      exact ⟨(ysUartSetBaud_pc uart baud).trans outside, Run.refl.tail enabled⟩

/-- A step of the device is at most one step of the UART module. -/
theorem appStep_uart {source target : AppState} {event : AppEvent} (parked : Parked source)
    (taken : appStep source event = some target) : Parked target ∧
      Run YsUart.step source.uart (uartEdge ⟨source, event, target⟩).toList target.uart := by
  obtain ⟨call, shown, move⟩ := appStep_move taken
  cases move with
  | uart place named moved away =>
      refine ⟨fun elsewhere => ?_, ?_⟩
      · obtain ⟨same, pc⟩ := away elsewhere
        exact pc.trans (parked fun inside => elsewhere (same.symm.trans inside))
      · rw [uartEdge]
        dsimp only
        rw [named]
        exact Run.refl.tail moved
  | command packet place =>
      have outside := parked (by rw [place]; decide)
      have moved := setBaud_run outside (commandBaud packet)
      rw [← nusOnCommandData_uart] at moved
      exact ⟨fun _ => moved.1, moved.2⟩
  | keyCheck now place outside =>
      have quiet : (keyCheck { source with place := .scan } now).2.bind ButtonCall.baud = none := by
        unfold keyCheck
        split <;> rfl
      rw [uartEdge, setBaudCall, shown]
      dsimp only
      rw [quiet, keyCheck_frame]
      exact ⟨fun _ => outside, .refl⟩
  | scan gpioRead now place =>
      have outside := parked (by rw [place]; decide)
      have moved := setBaud_run outside
        ((switchScan { source with place := .sdk } gpioRead now).2.bind ButtonCall.baud)
      have same := switchScan_uart { source with place := .sdk } gpioRead now
      dsimp only at same
      rw [← same] at moved
      rw [uartEdge, setBaudCall, shown]
      exact ⟨fun _ => moved.1, moved.2⟩

/-- Every run of the device is a run of the UART module from the rate loaded at boot. -/
theorem app_refines_uart {flash : Nat → UInt8} {rand : Nat → UInt16} {gpioRead : UInt32}
    {edges : List AppTransition} {final : AppState} (run : AppRun flash rand gpioRead edges final) :
    Parked final ∧
      UartRun (ysRomLoadDeviceConfig .ser2ble flash).1.baudrate (uartEdges edges) final.uart := by
  induction run with
  | refl => exact ⟨fun _ => init_pc _, .refl⟩
  | tail run taken ih =>
      obtain ⟨parked, earlier⟩ := ih
      obtain ⟨still, later⟩ := appStep_uart parked taken
      rw [uartEdges, filterMap_last]
      exact ⟨still, earlier.append later⟩

end Ser2Ble.App
