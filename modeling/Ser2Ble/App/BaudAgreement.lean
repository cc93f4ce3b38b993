import Ser2Ble.App.MainLoop

/-!
# One setting in five places

The rate is in `device_config`, in the UART divider, in the idle threshold, on
the LEDs and in the config sector.  Boot, remote command and button change them
in different orders; after each of them they agree.
-/

namespace Ser2Ble.App

open Library Proj YsRom YsUart BleDrv

/-! ## The UART at a rate -/

/-- The module is programmed to `rate`. -/
structure UartAt (uart : YsUart.State) (rate : UartBaudTypeDef) : Prop where
  idle : uart.rx.uartRxIdle = rate.rxIdle
  divider : uart.tx.uart.regUartClkDiv = rate.clk16m.1
  bwpc : uart.tx.uart.regUartBwpc = rate.clk16m.2

theorem uartAt_known (uart : YsUart.State) {baud : UInt8} {rate : UartBaudTypeDef}
    (known : UartBaudTypeDef.ofCode? baud = some rate) : UartAt (ysUartSetBaud uart baud) rate := by
  rw [ysUartSetBaud, known]
  cases rate <;> exact ⟨rfl, rfl, rfl⟩

theorem uartAt_setBaud (uart : YsUart.State) (rate : UartBaudTypeDef) :
    UartAt (ysUartSetBaud uart rate.code) rate :=
  uartAt_known uart (UartBaudTypeDef.ofCode?_code rate)

theorem uartAt_init (uart : YsUart.State) (rate : UartBaudTypeDef) :
    UartAt (ysUartInit uart rate.code) rate := by
  obtain ⟨idle, divider, bwpc⟩ := uartAt_setBaud { uart with rx := uart.rx.start } rate
  exact ⟨idle, divider, bwpc⟩

theorem UartAt.keep {source target : YsUart.State} {rate : UartBaudTypeDef}
    (programmed : UartAt source rate) (same : SameRate source target) : UartAt target rate :=
  ⟨same.idle.trans programmed.idle, same.divider.trans programmed.divider,
    same.bwpc.trans programmed.bwpc⟩

/-- The idle time tells the rates apart. -/
theorem UartAt.unique {uart : YsUart.State} {first second : UartBaudTypeDef}
    (one : UartAt uart first) (two : UartAt uart second) : first = second := by
  have idle := one.idle.symm.trans two.idle
  cases first <;> cases second <;> first | rfl | exact absurd idle (by decide)

/-- The rate that an event programs. -/
def programmedRate : YsUart.Event → Option UartBaudTypeDef
  | .setBaud baud => UartBaudTypeDef.ofCode? baud
  | _ => none

theorem programmedRate_step {source target : YsUart.State} {event : YsUart.Event}
    (taken : YsUart.step source event = some target) :
    match programmedRate event with
    | some rate => UartAt target rate
    | none => SameRate source target := by
  cases event with
  | setBaud baud =>
      obtain ⟨_, changed⟩ := Option.ite_none_right_eq_some.mp taken
      cases changed
      cases known : UartBaudTypeDef.ofCode? baud with
      | none =>
          simp only [programmedRate, known, ysUartSetBaud]
          exact ⟨rfl, rfl, rfl⟩
      | some rate =>
          simp only [programmedRate, known]
          exact uartAt_known source known
  | _ =>
      rcases step_rate taken with same | ⟨_, impossible, _⟩
      · exact same
      · cases impossible

/-- The rate last programmed by `ys_uart_set_baud`; `ys_uart_init` programmed `boot`. -/
def lastProgrammed (boot : UartBaudTypeDef) (edges : List YsUart.Transition) : UartBaudTypeDef :=
  ((edges.filterMap fun edge => programmedRate edge.event).getLast?).getD boot

theorem lastProgrammed_last (boot : UartBaudTypeDef) (edges : List YsUart.Transition)
    (edge : YsUart.Transition) : lastProgrammed boot (edges ++ [edge]) =
      (programmedRate edge.event).getD (lastProgrammed boot edges) := by
  rw [lastProgrammed, filterMap_last]
  cases programmedRate edge.event with
  | none => rw [Option.toList_none, List.append_nil]; rfl
  | some rate => rw [Option.toList_some, List.getLast?_concat]; rfl

theorem uartAt_lastProgrammed {boot : UartBaudTypeDef} {edges : List YsUart.Transition}
    {final : YsUart.State} (run : UartRun boot.code edges final) :
    UartAt final (lastProgrammed boot edges) := by
  induction run with
  | refl => exact uartAt_init powerOn boot
  | @tail edges middle target event run taken ih =>
      have moved := programmedRate_step taken
      rw [lastProgrammed_last]
      dsimp only
      cases named : programmedRate event with
      | none =>
          rw [named] at moved
          exact ih.keep moved
      | some rate =>
          rw [named] at moved
          exact moved

/-! ## Accepted rates -/

theorem code_le (rate : UartBaudTypeDef) : rate.code ≤ UartBaudTypeDef.uartBaud230400.code := by
  cases rate <;> decide

/-- Every accepted value of `baudrate` is a rate. -/
theorem code_of_le {baud : UInt8} (accepted : baud ≤ UartBaudTypeDef.uartBaud230400.code) :
    ∃ rate : UartBaudTypeDef, baud = rate.code := by
  rw [UInt8.le_iff_toNat_le] at accepted
  change baud.toNat ≤ 5 at accepted
  have named (rate : UartBaudTypeDef) (value : baud.toNat = rate.code.toNat) :
      ∃ rate : UartBaudTypeDef, baud = rate.code := ⟨rate, UInt8.toNat_inj.mp value⟩
  match value : baud.toNat, accepted with
  | 0, _ => exact named .uartBaud9600 value
  | 1, _ => exact named .uartBaud19200 value
  | 2, _ => exact named .uartBaud38400 value
  | 3, _ => exact named .uartBaud57600 value
  | 4, _ => exact named .uartBaud115200 value
  | 5, _ => exact named .uartBaud230400 value

theorem nextBaud_code (rate : UartBaudTypeDef) :
    ∃ next : UartBaudTypeDef, nextBaud rate.code = next.code := by
  cases rate with
  | uartBaud9600 => exact ⟨.uartBaud19200, by decide⟩
  | uartBaud19200 => exact ⟨.uartBaud38400, by decide⟩
  | uartBaud38400 => exact ⟨.uartBaud57600, by decide⟩
  | uartBaud57600 => exact ⟨.uartBaud115200, by decide⟩
  | uartBaud115200 => exact ⟨.uartBaud230400, by decide⟩
  | uartBaud230400 => exact ⟨.uartBaud9600, by decide⟩

theorem accepted_baudrate {cfg : DeviceCfg} (accepted : cfg.recoverFlag = 0)
    (rate : UartBaudTypeDef) : DeviceCfg.recoverFlag { cfg with baudrate := rate.code } = 0 := by
  obtain ⟨name, power, _⟩ := (recoverFlag_eq_zero_iff cfg).mp accepted
  exact (recoverFlag_eq_zero_iff _).mpr ⟨name, power, UInt8.not_lt.mpr (code_le rate)⟩

/-! ## The agreement -/

/-- The five copies hold `rate`, and the loader accepts what is stored. -/
structure Agree (s : AppState) (rate : UartBaudTypeDef) : Prop where
  config : s.deviceConfig.baudrate = rate.code
  uart : UartAt s.uart rate
  leds : s.leds = ser2bleShowBaudrate rate.code
  accepted : s.deviceConfig.recoverFlag = 0
  stored : DeviceCfg.read s.flash = s.deviceConfig

namespace Agree

variable {s : AppState} {rate : UartBaudTypeDef}

/-- A change of the UART that keeps its rate. -/
theorem keep (agree : Agree s rate) {uart : YsUart.State} (place : Place)
    (same : SameRate s.uart uart) : Agree { s with uart := uart, place := place } rate :=
  { agree with uart := agree.uart.keep same }

/-- A change of the button's variables. -/
theorem button (agree : Agree s rate) (keyTick : UInt32) (switch : YsSwitch.SwitchSts Unit)
    (place : Place) :
    Agree { s with keyTick := keyTick, switch := switch, place := place } rate :=
  { agree with }

/-- Programmed, saved and shown, the new rate is in all places. -/
theorem changed (agree : Agree s rate) (other : UartBaudTypeDef) (keyTick : UInt32) :
    Agree { ({ s with uart := ysUartSetBaud s.uart other.code }.setBaudrate other.code).save with
      leds := ser2bleShowBaudrate other.code, keyTick := keyTick } other where
  config := rfl
  uart := uartAt_setBaud s.uart other
  leds := rfl
  accepted := accepted_baudrate agree.accepted other
  stored := read_save s.flash _

theorem command (agree : Agree s rate) (data : List UInt8) (len : UInt8) :
    ∃ next, Agree (bleNusCmdHandler s data len) next := by
  unfold bleNusCmdHandler
  split
  · dsimp only
    split
    · next known =>
        obtain ⟨other, named⟩ := code_of_le known
        rw [named]
        split
        · exact ⟨other, agree.changed other s.keyTick⟩
        · next same =>
            -- nothing is saved, since the sector already holds this rate
            have kept := not_not.mp same
            dsimp only at kept ⊢
            rw [kept]
            exact ⟨other, { agree with
              config := kept
              uart := uartAt_setBaud s.uart other
              leds := rfl }⟩
    · exact ⟨rate, agree⟩
  · exact ⟨rate, agree⟩

theorem key (agree : Agree s rate) (val : UInt8) (now : Nat) :
    ∃ next, Agree (ser2bleCfgKeyHandler s val now).1 next := by
  unfold ser2bleCfgKeyHandler
  split
  · exact ⟨rate, { agree with }⟩
  · split
    · obtain ⟨next, stepped⟩ := nextBaud_code rate
      have config := agree.config
      dsimp only
      rw [config, stepped]
      exact ⟨next, agree.changed next 0⟩
    · exact ⟨rate, agree⟩

theorem scan (agree : Agree s rate) (gpioRead : UInt32) (now : Nat) :
    ∃ next, Agree (switchScan s gpioRead now).1 next := by
  have scanned := agree.button s.keyTick (YsSwitch.ysSwitchScan s.switch gpioRead).1 s.place
  unfold switchScan
  dsimp only
  split
  · exact scanned.key _ now
  · exact ⟨rate, scanned⟩

end Agree

/-- Programming the address leaves the config sector alone. -/
theorem read_bleDrvInit (flash : Nat → UInt8) (rand : Nat → UInt16) :
    DeviceCfg.read (NorFlash.run sectorSize flash (bleDrvInit flash rand).2) =
      DeviceCfg.read flash := by
  apply DeviceCfg.toBytes_injective
  rw [DeviceCfg.toBytes_read, DeviceCfg.toBytes_read]
  refine Cells.window_congr fun other first _ => ?_
  unfold bleDrvInit
  split
  · exact NorFlash.run_programBytes_outside _ _ _ (Or.inr ((by decide : cfgAdrMac + 6 ≤
      cfgAddrDevice).trans first))
  · rfl

theorem agree_init (flash : Nat → UInt8) (rand : Nat → UInt16) (gpioRead : UInt32) :
    ∃ rate, Agree (ser2bleInit flash rand gpioRead) rate := by
  have accepted : (ysRomLoadDeviceConfig .ser2ble flash).1.recoverFlag = 0 := by
    rw [load_fst]
    exact recovered_accepted _ _
  obtain ⟨rate, config⟩ := code_of_le
    (UInt8.not_lt.mp ((recoverFlag_eq_zero_iff _).mp accepted).2.2)
  refine ⟨rate, config, ?_, ?_, accepted, ?_⟩
  · change UartAt (ysUartInit powerOn _) rate
    rw [config]
    exact uartAt_init powerOn rate
  · change ser2bleShowBaudrate _ = _
    rw [config]
  · exact (read_bleDrvInit _ rand).trans (read_load .ser2ble flash)

theorem agree_step {source target : AppState} {event : AppEvent}
    (agree : ∃ rate, Agree source rate) (taken : appStep source event = some target) :
    ∃ rate, Agree target rate := by
  obtain ⟨rate, agree⟩ := agree
  obtain ⟨call, _, move⟩ := appStep_move taken
  cases move with
  | uart place named moved away =>
      rcases step_rate moved with same | ⟨baud, rfl, _⟩
      · exact ⟨rate, agree.keep place same⟩
      · cases event <;> cases named
  | command packet place => exact agree.command _ _
  | keyCheck now place outside =>
      rw [keyCheck_frame]
      exact ⟨rate, agree.button _ _ _⟩
  | scan gpioRead now place => exact (agree.button _ _ _).scan gpioRead now

/-! ## Runs -/

/-- What holds of the five places after every handler, `edges` having been taken since boot. -/
structure RateEverywhere (flash : Nat → UInt8) (edges : List AppTransition) (s : AppState)
    (rate : UartBaudTypeDef) : Prop where
  config : s.deviceConfig.baudrate = rate.code ∧
    s.deviceConfig.baudrate ≤ UartBaudTypeDef.uartBaud230400.code
  programmed : ∃ boot : UartBaudTypeDef,
    (ysRomLoadDeviceConfig .ser2ble flash).1.baudrate = boot.code ∧
      lastProgrammed boot (uartEdges edges) = rate
  divider : s.uart.tx.uart.regUartClkDiv = rate.clk16m.1 ∧
    s.uart.tx.uart.regUartBwpc = rate.clk16m.2
  idle : s.uart.rx.uartRxIdle = rate.rxIdle
  /-- a pin is low, and its LED lit, when its bit of the code plus one is set -/
  leds : s.leds = ⟨!(rate.code.toNat + 1).testBit 0, !(rate.code.toNat + 1).testBit 1,
    !(rate.code.toNat + 1).testBit 2⟩
  stored : DeviceCfg.read s.flash = s.deviceConfig
  reboot : ∀ rand gpioRead, (ser2bleInit s.flash rand gpioRead).deviceConfig = s.deviceConfig ∧
    loadOperations .ser2ble s.flash = []

theorem show_binary (rate : UartBaudTypeDef) : ser2bleShowBaudrate rate.code =
    ⟨!(rate.code.toNat + 1).testBit 0, !(rate.code.toNat + 1).testBit 1,
      !(rate.code.toNat + 1).testBit 2⟩ := by
  cases rate <;> decide

/-- From every flash content and over every run the five copies agree. -/
theorem baud_rate_agreement {flash : Nat → UInt8} {rand : Nat → UInt16} {gpioRead : UInt32}
    {edges : List AppTransition} {final : AppState} (run : AppRun flash rand gpioRead edges final) :
    ∃ rate, RateEverywhere flash edges final rate := by
  obtain ⟨rate, agree⟩ := @Run.invariant _ _ _ _ _ _ (fun s => ∃ rate, Agree s rate)
    (agree_init flash rand gpioRead) agree_step run
  obtain ⟨_, uartRun⟩ := app_refines_uart run
  obtain ⟨boot, loaded⟩ := agree_init flash rand gpioRead
  have booted : (ysRomLoadDeviceConfig .ser2ble flash).1.baudrate = boot.code := loaded.config
  rw [booted] at uartRun
  have accepted : (DeviceCfg.read final.flash).recoverFlag = 0 := by
    rw [agree.stored]
    exact agree.accepted
  have reloaded := load_accepted .ser2ble accepted
  rw [agree.stored] at reloaded
  exact ⟨rate, {
    config := ⟨agree.config, agree.config ▸ code_le rate⟩
    programmed := ⟨boot, booted, (uartAt_lastProgrammed uartRun).unique agree.uart⟩
    divider := ⟨agree.uart.divider, agree.uart.bwpc⟩
    idle := agree.uart.idle
    leds := agree.leds.trans (show_binary rate)
    stored := agree.stored
    reboot := fun rand gpioRead => ⟨congrArg Prod.fst reloaded,
      (loadOperations_eq_nil_iff .ser2ble final.flash).mpr accepted⟩ }⟩

/-- A remote command that selects 230400. -/
def selectFastest : RfPacketAttWrite :=
  ⟨5, [0x0B, 5], rfl⟩

/-- On an erased flash the device boots at 115200; the command moves it to 230400. -/
theorem baud_rate_agreement_command :
    ∃ edges final, edges.map Edge.event = [AppEvent.command selectFastest] ∧
      AppRun (fun _ => 0xFF) (fun _ => 0x2211) 0x20 edges final ∧
      ∃ rate, RateEverywhere (fun _ => 0xFF) edges final rate := by
  obtain ⟨final, events, run⟩ := @enabled_run _ _ appStep
    (ser2bleInit (fun _ => 0xFF) (fun _ => 0x2211) 0x20) [.command selectFastest] rfl
  exact ⟨_, final, events, run, baud_rate_agreement run⟩

end Ser2Ble.App
