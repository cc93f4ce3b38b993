import Ser2Ble.App.BaudAgreement
import Ser2Ble.App.Bridge
import Ser2Ble.BleDrv.Pins

/-!
# The pins of `vendor/826x_ser2ble`

Three pins show the baud rate, two are driven by BLE writes, and one is the link
LED.  They are bits of the registers of two ports, and each module writes its
own.  The link LED is called from the main loop at places that the model of the
bridge does not tell apart, so its calls may come between any two steps.
-/

namespace Ser2Ble.App

open Library Lines Proj YsRom YsSwitch YsUart BleDrv

/-! ## The model -/

def baud1LedPin : GpioPin := gpioPB6
def baud2LedPin : GpioPin := gpioPB5
def baud3LedPin : GpioPin := gpioPB0
def serGpio0Pin : GpioPin := gpioPA0

/-- `PRINT_DEBUG_INFO` is 0. -/
def serGpio1Pin : GpioPin := gpioPA1

/-- The writes of `ser2ble_show_baudrate`. -/
def showBaudrateCalls (baud : UInt8) : List Change :=
  threeLedCalls baud1LedPin baud2LedPin baud3LedPin (baud + 1)

/-- The writes of `ble_nus_gpio_handler`. -/
def nusGpioCalls (data : UInt8) : List Change :=
  gpioWrite serGpio0Pin.code (data &&& 0x01).toUInt32 ++
    gpioWrite serGpio1Pin.code (data &&& 0x02).toUInt32

/-- What `ser2ble_show_baudrate` is called with along an edge, if it is called. -/
def shownBaud (edge : AppTransition) : Option UInt8 :=
  match edge.event with
  | .command packet => (commandBaud packet).map fun _ => edge.target.deviceConfig.baudrate
  | _ => ((buttonCall edge).bind ButtonCall.baud).map fun _ => edge.target.deviceConfig.baudrate

/-- The writes along an edge of the bridge. -/
def bridgeCalls (edge : BridgeTransition) : List Change :=
  match edge.event with
  | .gpio packet behind => nusGpioCalls (packet.firstByte behind)
  | _ => ((appEdge edge).bind shownBaud).elim [] showBaudrateCalls

/--
`regs` and `analog` are what the program has written to the registers of the pins;
the closed stack is taken to leave them alone.
-/
structure PanelState where
  bridge : BridgeState
  link : LedState
  regs : Nat → UInt8
  analog : Nat → UInt8

inductive PanelEvent where
  | bridge (event : BridgeEvent)
  | link (event : LedEvent)

/--
The calls of `ser2ble_init` in order: `device_led_init` in `ble_drv_init`, the
pins of the UART in `ys_uart_init`, and `ys_switch_register` last.
`ble_start_advertis` is a call of the link LED like those that follow.
-/
def bootCalls (baud : UInt8) : List Change :=
  outputCalls baud1LedPin ++ outputCalls baud2LedPin ++ outputCalls baud3LedPin ++
    outputCalls serGpio0Pin ++ outputCalls serGpio1Pin ++ outputCalls linkLedPin ++
    onOffCalls ledInit.led 0 ++ uartGpioCfgPC6PC7 ++ showBaudrateCalls baud ++ inputCalls switchPin

/-- `gpio_init` and `ser2ble_init`. -/
def bootRegisters (regs : Nat → UInt8) (baud : UInt8) : Nat → UInt8 :=
  execAll (gpioInit regs) (bootCalls baud)

def panelInit (flash : Nat → UInt8) (rand : Nat → UInt16) (gpioRead : UInt32)
    (regs analog : Nat → UInt8) : PanelState where
  bridge := bridgeInit flash rand gpioRead
  link := ledInit
  regs := bootRegisters regs (ysRomLoadDeviceConfig .ser2ble flash).1.baudrate
  analog := bootAnalog analog

def panelStep (s : PanelState) : PanelEvent → Option PanelState
  | .bridge event => (bridgeStep s.bridge event).map fun bridge =>
      { s with
        bridge := bridge
        regs := execAll s.regs (bridgeCalls ⟨s.bridge, event, bridge⟩) }
  | .link event => (ledStep s.link event).map fun link =>
      { s with link := link, regs := execAll s.regs (linkCalls s.link.led event) }

abbrev PanelTransition := Edge PanelState PanelEvent

abbrev PanelRun (flash : Nat → UInt8) (rand : Nat → UInt16) (gpioRead : UInt32)
    (regs analog : Nat → UInt8) : List PanelTransition → PanelState → Prop :=
  Run panelStep (panelInit flash rand gpioRead regs analog)

/-! ## What the calls do to the pins -/

/-- The three pins show the rate. -/
theorem levels_showBaudrate (regs : Nat → UInt8) (baud : UInt8) :
    let shown := execAll regs (showBaudrateCalls baud)
    levels shown baud1LedPin.outputLine = (ser2bleShowBaudrate baud).baud1 ∧
      levels shown baud2LedPin.outputLine = (ser2bleShowBaudrate baud).baud2 ∧
      levels shown baud3LedPin.outputLine = (ser2bleShowBaudrate baud).baud3 :=
  levels_threeLedCalls regs (by decide) (baud + 1)

theorem nusGpioCalls_eq (data : UInt8) : nusGpioCalls data =
    [drive serGpio0Pin.outputLine (decide (data &&& 0x01 ≠ 0)),
      drive serGpio1Pin.outputLine (decide (data &&& 0x02 ≠ 0))] := by
  simp only [nusGpioCalls, gpioWrite_eq, widened_ne_zero]
  rfl

theorem levels_nusGpio (regs : Nat → UInt8) (s : BridgeState) (data : UInt8) :
    let driven := execAll regs (nusGpioCalls data)
    levels driven serGpio0Pin.outputLine = (bleNusGpioHandler s data).serGpio0 ∧
      levels driven serGpio1Pin.outputLine = (bleNusGpioHandler s data).serGpio1 := by
  simp only [nusGpioCalls_eq, levels_execAll, lastHigh_cons, lastHigh_nil, covers_drive, drive_high]
  exact ⟨rfl, rfl⟩

/-! ## The bridge and its pins -/

theorem command_leds (s : AppState) (packet : RfPacketAttWrite) :
    (nusOnCommandData s packet).leds = ((commandBaud packet).map fun _ =>
      (nusOnCommandData s packet).deviceConfig.baudrate).elim s.leds ser2bleShowBaudrate := by
  rcases Classical.em (UInt8.ofNat (packet.l2capLen.toNat - 3) = 2 ∧ packet.value.getD 0 0 = 0x0B)
    with selects | other
  · rcases Classical.em (packet.value.getD 1 0 ≤ UartBaudTypeDef.uartBaud230400.code)
      with known | unknown
    · have called : commandBaud packet = some (packet.value.getD 1 0) :=
        if_pos ⟨selects.1, selects.2, known⟩
      rw [called, nusOnCommandData, bleNusCmdHandler, if_pos selects]
      dsimp only
      rw [if_pos known]
      rfl
    · have quiet : commandBaud packet = none := if_neg fun all => unknown all.2.2
      rw [quiet, nusOnCommandData, bleNusCmdHandler, if_pos selects]
      dsimp only
      rw [if_neg unknown]
      rfl
  · have quiet : commandBaud packet = none := if_neg fun all => other ⟨all.1, all.2.1⟩
    rw [quiet, nusOnCommandData, bleNusCmdHandler, if_neg other]
    rfl

theorem scan_leds (s : AppState) (gpioRead : UInt32) (now : Nat) :
    (switchScan s gpioRead now).1.leds =
      (((switchScan s gpioRead now).2.bind ButtonCall.baud).map fun _ =>
        (switchScan s gpioRead now).1.deviceConfig.baudrate).elim s.leds ser2bleShowBaudrate := by
  unfold switchScan ser2bleCfgKeyHandler
  dsimp only
  split
  · split
    · rfl
    · split <;> rfl
  · rfl

/-- The LEDs change exactly where `ser2ble_show_baudrate` is called. -/
theorem step_leds {source target : AppState} {event : AppEvent}
    (taken : appStep source event = some target) :
    target.leds = (shownBaud ⟨source, event, target⟩).elim source.leds ser2bleShowBaudrate := by
  obtain ⟨call, shown, move⟩ := appStep_move taken
  cases move with
  | @uart _ _ uart place named moved away =>
      have quiet : shownBaud ⟨source, event, { source with uart := uart, place := place }⟩ =
          none := by
        cases event with
        | command packet => cases named
        | _ =>
            unfold shownBaud
            dsimp only
            rw [shown]
            rfl
      rw [quiet]
      rfl
  | command packet place => exact command_leds source packet
  | keyCheck now place outside =>
      have quiet : (keyCheck { source with place := .scan } now).2.bind ButtonCall.baud = none := by
        unfold keyCheck
        split <;> rfl
      unfold shownBaud
      dsimp only
      rw [shown, quiet, keyCheck_frame]
      rfl
  | scan gpioRead now place =>
      unfold shownBaud
      dsimp only
      rw [shown]
      exact scan_leds { source with place := .sdk } gpioRead now

/-- A step of the bridge is a GPIO write, or changes the LEDs as the device does. -/
theorem bridge_pins {source target : BridgeState} {event : BridgeEvent}
    (taken : bridgeStep source event = some target) :
    (∃ data, bridgeCalls ⟨source, event, target⟩ = nusGpioCalls data ∧
      target = bleNusGpioHandler source data) ∨
    (∃ shown : Option UInt8, bridgeCalls ⟨source, event, target⟩ = shown.elim [] showBaudrateCalls ∧
      target.app.leds = shown.elim source.app.leds ser2bleShowBaudrate ∧
      target.serGpio0 = source.serGpio0 ∧ target.serGpio1 = source.serGpio1) := by
  obtain ⟨calls, _, move⟩ := bridgeStep_move taken
  cases move with
  | gpio packet behind place => exact Or.inl ⟨_, rfl, rfl⟩
  | device event app own stepped =>
      refine Or.inr ⟨_, rfl, ?_, rfl, rfl⟩
      rw [appEdge_some (appEvent_device source own)]
      exact step_leds stepped
  | answer sertxBuf sertxIdx app handler stepped =>
      refine Or.inr ⟨_, rfl, ?_, rfl, rfl⟩
      rw [appEdge_some (appEvent_answer handler)]
      exact step_leds stepped
  | handlerReturn ret app handler stepped =>
      refine Or.inr ⟨_, rfl, ?_, rfl, rfl⟩
      rw [appEdge_some (appEvent_handlerReturn handler)]
      exact step_leds stepped
  | gapConnected | nusSendData | atProcess => exact Or.inr ⟨none, rfl, rfl, rfl, rfl⟩

/-! ## Every step -/

def panelPins : List GpioPin :=
  [baud1LedPin, baud2LedPin, baud3LedPin, serGpio0Pin, serGpio1Pin, linkLedPin]

/-- The pins hold what the modules keep, and nothing else has changed since `boot`. -/
structure Driven (boot : Nat → UInt8) (s : PanelState) : Prop where
  baud1 : levels s.regs baud1LedPin.outputLine = s.bridge.app.leds.baud1
  baud2 : levels s.regs baud2LedPin.outputLine = s.bridge.app.leds.baud2
  baud3 : levels s.regs baud3LedPin.outputLine = s.bridge.app.leds.baud3
  serGpio0 : levels s.regs serGpio0Pin.outputLine = s.bridge.serGpio0
  serGpio1 : levels s.regs serGpio1Pin.outputLine = s.bridge.serGpio1
  link : levels s.regs linkLedPin.outputLine = s.link.led.output bleLedPin
  others : ∀ line ∉ panelPins.map GpioPin.outputLine, levels s.regs line = levels boot line

theorem showBaudrate_only (baud : UInt8) :
    DrivesOnly [baud1LedPin.outputLine, baud2LedPin.outputLine, baud3LedPin.outputLine]
      (showBaudrateCalls baud) :=
  threeLedCalls_only baud1LedPin baud2LedPin baud3LedPin (baud + 1)

theorem nusGpio_only (data : UInt8) :
    DrivesOnly [serGpio0Pin.outputLine, serGpio1Pin.outputLine] (nusGpioCalls data) := by
  rw [nusGpioCalls_eq]
  exact .cons _ (by simp) (.cons _ (by simp) .nil)

theorem not_mem_of_subset {lines : List Line} {line : Line}
    (others : line ∉ panelPins.map GpioPin.outputLine)
    (inside : lines ⊆ panelPins.map GpioPin.outputLine) : line ∉ lines :=
  fun member => others (inside member)

namespace Driven

variable {boot : Nat → UInt8} {s : PanelState}

theorem showBaudrate (driven : Driven boot s) {bridge : BridgeState} {baud : UInt8}
    (leds : bridge.app.leds = ser2bleShowBaudrate baud) (same0 : bridge.serGpio0 = s.bridge.serGpio0)
    (same1 : bridge.serGpio1 = s.bridge.serGpio1) :
    Driven boot { s with
      bridge := bridge, regs := execAll s.regs (showBaudrateCalls baud) } := by
  obtain ⟨shown1, shown2, shown3⟩ := levels_showBaudrate s.regs baud
  have apart := (showBaudrate_only baud).levels_eq s.regs
  rw [← leds] at shown1 shown2 shown3
  refine ⟨shown1, shown2, shown3, ?_, ?_, ?_, ?_⟩
  · exact (apart _ (by decide)).trans (driven.serGpio0.trans same0.symm)
  · exact (apart _ (by decide)).trans (driven.serGpio1.trans same1.symm)
  · exact (apart _ (by decide)).trans driven.link
  · intro line others
    exact (apart _ (not_mem_of_subset others (by decide))).trans (driven.others line others)

theorem nusGpio (driven : Driven boot s) (data : UInt8) :
    Driven boot { s with
      bridge := bleNusGpioHandler s.bridge data
      regs := execAll s.regs (nusGpioCalls data) } := by
  obtain ⟨first, second⟩ := levels_nusGpio s.regs s.bridge data
  have apart := (nusGpio_only data).levels_eq s.regs
  refine ⟨?_, ?_, ?_, first, second, ?_, ?_⟩
  · exact (apart _ (by decide)).trans driven.baud1
  · exact (apart _ (by decide)).trans driven.baud2
  · exact (apart _ (by decide)).trans driven.baud3
  · exact (apart _ (by decide)).trans driven.link
  · intro line others
    exact (apart _ (not_mem_of_subset others (by decide))).trans (driven.others line others)

theorem linkCall (driven : Driven boot s) (wired : Wired s.link.led) {event : LedEvent}
    {link : LedState} (moved : ledStep s.link event = some link) :
    Driven boot { s with
      link := link, regs := execAll s.regs (linkCalls s.link.led event) } := by
  have apart := (link_only wired event).levels_eq s.regs
  refine ⟨?_, ?_, ?_, ?_, ?_, link_step wired moved driven.link, ?_⟩
  · exact (apart _ (by decide)).trans driven.baud1
  · exact (apart _ (by decide)).trans driven.baud2
  · exact (apart _ (by decide)).trans driven.baud3
  · exact (apart _ (by decide)).trans driven.serGpio0
  · exact (apart _ (by decide)).trans driven.serGpio1
  · intro line others
    exact (apart _ (not_mem_of_subset others (by decide))).trans (driven.others line others)

end Driven

/-! ## Power-on -/

/-- A line after the boot is where its last call drove it, or as `gpio_init` left it. -/
theorem levels_boot (regs : Nat → UInt8) (baud : UInt8) (line : Line) :
    levels (bootRegisters regs baud) line =
      (lastHigh (bootCalls baud) line).getD (levels (gpioInit regs) line) :=
  levels_execAll (gpioInit regs) (bootCalls baud) line

/-- The pins are ready after the boot, whatever the registers held before. -/
theorem boot_ready (regs : Nat → UInt8) (baud : UInt8) :
    PinsReady (bootRegisters regs baud) panelPins := by
  constructor <;>
    simp only [panelPins, List.forall_mem_cons, levels_boot, bootCalls, outputCalls_eq,
      inputCalls_eq, onOffCalls_init, uartGpioCfgPC6PC7_eq, showBaudrateCalls, threeLedCalls_eq,
      List.cons_append, List.nil_append, lastHigh_cons, lastHigh_nil, covers_drive, drive_high]
  · exact ⟨⟨rfl, rfl, rfl⟩, ⟨rfl, rfl, rfl⟩, ⟨rfl, rfl, rfl⟩, ⟨rfl, rfl, rfl⟩, ⟨rfl, rfl, rfl⟩,
      ⟨rfl, rfl, rfl⟩, nofun⟩
  · exact ⟨rfl, rfl, rfl⟩
  · exact ⟨⟨rfl, rfl, rfl⟩, ⟨rfl, rfl, rfl⟩, nofun⟩

theorem driven_init (flash : Nat → UInt8) (rand : Nat → UInt16) (gpioRead : UInt32)
    (regs analog : Nat → UInt8) :
    Driven (bootRegisters regs (ysRomLoadDeviceConfig .ser2ble flash).1.baudrate)
      (panelInit flash rand gpioRead regs analog) := by
  have low := fun pin => levels_gpioInit regs pin
  refine ⟨?_, ?_, ?_, ?_, ?_, ?_, fun line _ => by rw [panelInit]⟩
  all_goals
    simp only [panelInit, levels_boot, bootCalls, outputCalls_eq, inputCalls_eq, onOffCalls_init,
      uartGpioCfgPC6PC7_eq, showBaudrateCalls, threeLedCalls_eq, List.cons_append, List.nil_append,
      lastHigh_cons, lastHigh_nil, covers_drive, drive_high]
  · rfl
  · rfl
  · rfl
  · exact low serGpio0Pin
  · exact low serGpio1Pin
  · rfl

/-! ## Runs -/

theorem Driven.step {boot : Nat → UInt8} {source target : PanelState} {event : PanelEvent}
    (driven : Driven boot source) (wired : Wired source.link.led)
    (taken : panelStep source event = some target) : Driven boot target := by
  cases event with
  | bridge event =>
      obtain ⟨bridge, moved, same⟩ := Option.map_eq_some_iff.mp taken
      subst same
      rcases bridge_pins moved with ⟨data, calls, rfl⟩ | ⟨baud, calls, leds, same0, same1⟩
      · rw [calls]
        exact driven.nusGpio data
      · rw [calls]
        cases baud with
        | none =>
            obtain ⟨baud1, baud2, baud3, serGpio0, serGpio1, link, others⟩ := driven
            have same : bridge.app.leds = source.bridge.app.leds := leds
            rw [← same] at baud1 baud2 baud3
            exact ⟨baud1, baud2, baud3, serGpio0.trans same0.symm, serGpio1.trans same1.symm, link,
              others⟩
        | some baud => exact driven.showBaudrate leds same0 same1
  | link event =>
      obtain ⟨link, moved, same⟩ := Option.map_eq_some_iff.mp taken
      subst same
      exact driven.linkCall wired moved

/-- The step of the bridge along an edge. -/
def bridgeEdge (edge : PanelTransition) : Option BridgeTransition :=
  match edge.event with
  | .bridge event => some ⟨edge.source.bridge, event, edge.target.bridge⟩
  | .link _ => none

/-- The call of the link LED along an edge. -/
def linkEdge (edge : PanelTransition) : Option LedTransition :=
  match edge.event with
  | .bridge _ => none
  | .link event => some ⟨edge.source.link, event, edge.target.link⟩

def bridgeEdges (edges : List PanelTransition) : List BridgeTransition :=
  edges.filterMap bridgeEdge

def linkEdges (edges : List PanelTransition) : List LedTransition :=
  edges.filterMap linkEdge

/-- What the last write of `nus_onGpioData` was, 0 before the first. -/
def lastGpio (edges : List BridgeTransition) : UInt8 :=
  (edges.filterMap fun edge =>
    match edge.event with
    | .gpio packet behind => some (packet.firstByte behind)
    | _ => none).getLast?.getD 0

section Runs

variable {flash : Nat → UInt8} {rand : Nat → UInt16} {gpioRead : UInt32}
  {regs analog : Nat → UInt8} {edges : List PanelTransition} {final : PanelState}

theorem panel_refines_bridge (run : PanelRun flash rand gpioRead regs analog edges final) :
    BridgeRun flash rand gpioRead (bridgeEdges edges) final.bridge := by
  refine run.simulated PanelState.bridge bridgeEdge fun {source event target} taken => ?_
  cases event with
  | bridge event =>
      obtain ⟨bridge, moved, same⟩ := Option.map_eq_some_iff.mp taken
      subst same
      exact Run.refl.tail moved
  | link event =>
      obtain ⟨link, _, same⟩ := Option.map_eq_some_iff.mp taken
      subst same
      exact .refl

theorem panel_refines_link (run : PanelRun flash rand gpioRead regs analog edges final) :
    LedRun (linkEdges edges) final.link := by
  refine run.simulated PanelState.link linkEdge fun {source event target} taken => ?_
  cases event with
  | bridge event =>
      obtain ⟨bridge, _, same⟩ := Option.map_eq_some_iff.mp taken
      subst same
      exact .refl
  | link event =>
      obtain ⟨link, moved, same⟩ := Option.map_eq_some_iff.mp taken
      subst same
      exact Run.refl.tail moved

theorem driven_run (run : PanelRun flash rand gpioRead regs analog edges final) :
    Driven (bootRegisters regs (ysRomLoadDeviceConfig .ser2ble flash).1.baudrate) final := by
  induction run with
  | refl => exact driven_init flash rand gpioRead regs analog
  | tail run taken ih =>
      have wired := wired_run wired_init (panel_refines_link run)
      exact ih.step wired taken

/-- No step writes an analog register. -/
theorem analog_run (run : PanelRun flash rand gpioRead regs analog edges final) :
    final.analog = bootAnalog analog := by
  refine @Run.invariant _ _ _ _ _ _ (fun s => s.analog = bootAnalog analog) rfl
    (fun {source event target} kept taken => ?_) run
  cases event with
  | bridge event =>
      obtain ⟨bridge, _, same⟩ := Option.map_eq_some_iff.mp taken
      subst same
      exact kept
  | link event =>
      obtain ⟨link, _, same⟩ := Option.map_eq_some_iff.mp taken
      subst same
      exact kept

end Runs

/-- The two pins follow the last write. -/
theorem serGpio_run {flash : Nat → UInt8} {rand : Nat → UInt16} {gpioRead : UInt32}
    {edges : List BridgeTransition} {final : BridgeState}
    (run : BridgeRun flash rand gpioRead edges final) :
    final.serGpio0 = decide (lastGpio edges &&& 0x01 ≠ 0) ∧
      final.serGpio1 = decide (lastGpio edges &&& 0x02 ≠ 0) := by
  induction run with
  | refl => exact ⟨rfl, rfl⟩
  | @tail edges middle target event run taken ih =>
      rw [lastGpio, filterMap_last]
      obtain ⟨calls, _, move⟩ := bridgeStep_move taken
      cases move with
      | gpio packet behind place =>
          rw [Option.toList_some, List.getLast?_concat]
          exact ⟨rfl, rfl⟩
      | device | gapConnected | nusSendData | atProcess | answer | handlerReturn =>
          rw [Option.toList_none, List.append_nil]
          exact ih

/-- What is seen on the pins after `edges`. -/
structure PanelShows (flash regs : Nat → UInt8) (edges : List PanelTransition) (s : PanelState)
    (rate : UartBaudTypeDef) : Prop where
  config : s.bridge.app.deviceConfig.baudrate = rate.code
  uart : UartAt s.bridge.app.uart rate
  /-- a pin is low, and its LED lit, when its bit of the code plus one is set -/
  baud1 : levels s.regs baud1LedPin.outputLine = !(rate.code.toNat + 1).testBit 0
  baud2 : levels s.regs baud2LedPin.outputLine = !(rate.code.toNat + 1).testBit 1
  baud3 : levels s.regs baud3LedPin.outputLine = !(rate.code.toNat + 1).testBit 2
  serGpio0 : levels s.regs serGpio0Pin.outputLine =
    decide (lastGpio (bridgeEdges edges) &&& 0x01 ≠ 0)
  serGpio1 : levels s.regs serGpio1Pin.outputLine =
    decide (lastGpio (bridgeEdges edges) &&& 0x02 ≠ 0)
  link : (∀ edge ∈ linkEdges edges, Polled edge) →
    (levels s.regs linkLedPin.outputLine = false ↔ (shown (linkEdges edges)).LitAt s.link.now)
  ready : PinsReady s.regs panelPins
  resistors : ∀ pin : GpioPin, pin.Bonded → pin.pull s.analog = bootResistor pin
  others : ∀ line ∉ panelPins.map GpioPin.outputLine, levels s.regs line =
    levels (bootRegisters regs (ysRomLoadDeviceConfig .ser2ble flash).1.baudrate) line

/--
In every interleaving of the bridge and the link LED, and whatever the registers
held before, the panel shows the rate in use, the last BLE write and the link;
the pins stay as the boot has set them up, and no write to one disturbs another.
-/
theorem panel_shows {flash : Nat → UInt8} {rand : Nat → UInt16} {gpioRead : UInt32}
    {regs analog : Nat → UInt8} {edges : List PanelTransition} {final : PanelState}
    (run : PanelRun flash rand gpioRead regs analog edges final) :
    ∃ rate, PanelShows flash regs edges final rate := by
  have bridgeRun := panel_refines_bridge run
  have linkRun := panel_refines_link run
  have driven := driven_run run
  have wired := wired_run wired_init linkRun
  obtain ⟨serGpio0, serGpio1⟩ := serGpio_run bridgeRun
  obtain ⟨rate, agree⟩ := @Run.invariant _ _ _ _ _ _ (fun s => ∃ rate, Agree s rate)
    (agree_init flash rand gpioRead) agree_step (bridge_refines_app bridgeRun)
  have leds := agree.leds.trans (show_binary rate)
  refine ⟨rate, agree.config, agree.uart, ?_, ?_, ?_, ?_, ?_, ?_,
    (boot_ready regs _).congr driven.others, ?_, driven.others⟩
  · rw [driven.baud1, leds]
  · rw [driven.baud2, leds]
  · rw [driven.baud3, leds]
  · rw [driven.serGpio0, serGpio0]
  · rw [driven.serGpio1, serGpio1]
  · intro polled
    rw [driven.link]
    exact Shows.lit_iff wired (shows_run linkRun polled)
  · intro pin bonded
    rw [analog_run run]
    exact pull_bootAnalog analog bonded

/-- The device advertises, is told to use 230400, gets two writes to its pins, and connects. -/
def tourOfPanel : List PanelEvent :=
  [.link (.startAdvertis 100), .bridge (.device (.command selectFastest)),
    .bridge (.gpio ⟨6, [3, 0, 0], rfl⟩ 0), .link (.process 5000), .bridge (.gpio .empty 0x42),
    .link (.connect 6000)]

theorem panel_shows_tour :
    ∃ edges final, edges.map Edge.event = tourOfPanel ∧
      PanelRun (fun _ => 0xFF) (fun _ => 0x2211) 0x20 (fun _ => 0xA5) (fun _ => 0x5A) edges final ∧
      ∃ rate, PanelShows (fun _ => 0xFF) (fun _ => 0xA5) edges final rate := by
  obtain ⟨final, events, run⟩ := @enabled_run _ _ panelStep
    (panelInit (fun _ => 0xFF) (fun _ => 0x2211) 0x20 (fun _ => 0xA5) fun _ => 0x5A) tourOfPanel
    (by decide +kernel)
  exact ⟨_, final, events, run, panel_shows run⟩

end Ser2Ble.App
