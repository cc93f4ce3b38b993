import Ser2Ble.BleDrv.DeviceLed
import Ser2Ble.Proj.Gpio

/-!
# The pins that both products use

The link LED, of whose functions only `device_led_on_off` reaches a register,
and the switch.
-/

namespace Ser2Ble.BleDrv

open Library Lines Proj

/-! ## The model -/

/-- `BLE_LED_PIN`. -/
def linkLedPin : GpioPin := gpioPA5

/-- `SW_CFG_PIN`. -/
def switchPin : GpioPin := gpioPD5

/-- What `led_proc` calls `device_led_on_off` with, if it does. -/
def procArgument (led : DeviceLed) (now : Nat) : Option UInt8 :=
  if led.isOn ≠ 0 then
    if clockTimeExceed now led.startTick (led.onTimeMs.toUInt32 * 1000) then some 0 else none
  else if clockTimeExceed now led.startTick (led.offTimeMs.toUInt32 * 1000) then
    if led.repeatCount ≠ 0 then some 1 else none
  else none

/-- What a call passes to `device_led_on_off`, which stores it in `isOn`. -/
def onOffArgument (led : DeviceLed) (event : LedEvent) : Option UInt8 :=
  match event with
  | .connect _ | .terminate _ | .startAdvertis _ => some (ledExec led event).isOn
  | .process now => if led.repeatCount ≠ 0 then procArgument led now else none

/-- What `device_led_on_off` writes. -/
def onOffCalls (led : DeviceLed) (on : UInt8) : List Change :=
  gpioWrite led.gpioLed (on ^^^ led.polar).toUInt32

/-- What a call of the link LED writes. -/
def linkCalls (led : DeviceLed) (event : LedEvent) : List Change :=
  (onOffArgument led event).elim [] (onOffCalls led)

/-- The resistors after `gpio_init` and `ys_switch_register`. -/
def bootAnalog (analog : Nat → UInt8) : Nat → UInt8 :=
  gpioSetupUpDownResistor (gpioInitAnalog analog) switchPin.code pmPinPullup10K

/-- The resistor that a pin has after the boot. -/
def bootResistor (pin : GpioPin) : UInt8 :=
  upDownValue (if pin = switchPin then pmPinPullup10K
    else if pin = gpioPA0 ∨ pin = gpioPB3 then pmPinPullup1M else pmPinUpDownFloat)

/-- How the pins are set up: some are driven, the switch is read, and two are the UART's. -/
structure PinsReady (regs : Nat → UInt8) (outputs : List GpioPin) : Prop where
  outputs : ∀ pin ∈ outputs, levels regs pin.functionLine = true ∧
    levels regs pin.inputLine = false ∧ levels regs pin.disableLine = false
  switch : levels regs switchPin.functionLine = true ∧ levels regs switchPin.inputLine = true ∧
    levels regs switchPin.disableLine = true
  uart : ∀ pin ∈ [gpioPC6, gpioPC7], levels regs pin.functionLine = false ∧
    levels regs pin.configLine = false ∧ levels regs pin.inputLine = true

/-! ## The writes of the calls -/

theorem linkLedPin_code : linkLedPin.code = bleLedPin := by decide

/-- `device_led_on_off` drives the pin of the link LED. -/
theorem onOffCalls_eq {led : DeviceLed} (wired : Wired led) (on : UInt8) :
    onOffCalls led on = [drive linkLedPin.outputLine (decide (on ^^^ 1 ≠ 0))] := by
  rw [onOffCalls, wired.pin, wired.polar, ← linkLedPin_code, gpioWrite_eq, widened_ne_zero]

/-- `device_led_init` leaves the LED dark. -/
theorem onOffCalls_init : onOffCalls ledInit.led 0 = [drive linkLedPin.outputLine true] :=
  onOffCalls_eq wired_init 0

theorem process_isOn (led : DeviceLed) (now : Nat) :
    (led.process now).isOn =
      (if led.repeatCount ≠ 0 then procArgument led now else none).getD led.isOn := by
  unfold DeviceLed.process DeviceLed.proc procArgument
  dsimp only
  split_ifs <;> rfl

/-- What the calls pass to `device_led_on_off` is what `isOn` becomes. -/
theorem ledExec_isOn (led : DeviceLed) (event : LedEvent) :
    (ledExec led event).isOn = (onOffArgument led event).getD led.isOn := by
  cases event with
  | connect now => rfl
  | terminate now => rfl
  | startAdvertis now => rfl
  | process now => exact process_isOn led now

theorem link_level {led : DeviceLed} {event : LedEvent} {regs : Nat → UInt8} (wired : Wired led)
    (wired' : Wired (ledExec led event))
    (held : levels regs linkLedPin.outputLine = led.output bleLedPin) :
    levels (execAll regs (linkCalls led event)) linkLedPin.outputLine =
      (ledExec led event).output bleLedPin := by
  have isOn := ledExec_isOn led event
  rw [wired'.level, linkCalls]
  cases argument : onOffArgument led event with
  | none =>
      rw [argument] at isOn
      rw [isOn]
      exact held.trans wired.level
  | some on =>
      rw [argument] at isOn
      rw [isOn, Option.elim_some, onOffCalls_eq wired, levels_execAll, lastHigh_cons, covers_drive,
        decide_eq_true rfl, drive_high]
      rfl

/-- After every call the pin has the level that the driver keeps for it. -/
theorem link_step {source target : LedState} {event : LedEvent} {regs : Nat → UInt8}
    (wired : Wired source.led) (taken : ledStep source event = some target)
    (held : levels regs linkLedPin.outputLine = source.led.output bleLedPin) :
    levels (execAll regs (linkCalls source.led event)) linkLedPin.outputLine =
      target.led.output bleLedPin := by
  have wired' := wired_step wired taken
  obtain ⟨_, executed⟩ := Option.ite_none_right_eq_some.mp taken
  cases executed
  exact link_level wired wired' held

/-- The calls of the link LED drive its pin only. -/
theorem link_only {led : DeviceLed} (wired : Wired led) (event : LedEvent) :
    DrivesOnly [linkLedPin.outputLine] (linkCalls led event) := by
  unfold linkCalls
  cases onOffArgument led event with
  | none => exact .nil
  | some on =>
      rw [Option.elim_some, onOffCalls_eq wired]
      exact .cons _ (by simp) .nil

/-! ## The boot -/

theorem pull_bootAnalog (analog : Nat → UInt8) {pin : GpioPin} (bonded : pin.Bonded) :
    pin.pull (bootAnalog analog) = bootResistor pin := by
  rw [bootAnalog, resistor_selected, pull_gpioInitAnalog analog bonded, bootResistor]
  split_ifs <;> rfl

/-- No output of a pin is part of how pins are set up. -/
theorem setup_not_output {pin : GpioPin} {line : Line} (pins : List GpioPin)
    (setup : line ∈ [pin.functionLine, pin.inputLine, pin.disableLine, pin.configLine]) :
    line ∉ pins.map GpioPin.outputLine := by
  intro member
  obtain ⟨other, _, same⟩ := List.mem_map.mp member
  have register : 0x583 + 8 * other.port.val = line.1 := congrArg Prod.fst same
  have port := pin.port.isLt
  have port' := other.port.isLt
  simp only [List.mem_cons, List.not_mem_nil, or_false] at setup
  rcases setup with rfl | rfl | rfl | rfl <;>
    simp only [GpioPin.functionLine, GpioPin.inputLine, GpioPin.disableLine, GpioPin.configLine]
      at register <;>
    omega

/-- Writes to outputs keep the pins set up. -/
theorem PinsReady.congr {boot regs : Nat → UInt8} {outputs driven : List GpioPin}
    (ready : PinsReady boot outputs)
    (others : ∀ line ∉ driven.map GpioPin.outputLine, levels regs line = levels boot line) :
    PinsReady regs outputs := by
  have same : ∀ pin : GpioPin, levels regs pin.functionLine = levels boot pin.functionLine ∧
      levels regs pin.inputLine = levels boot pin.inputLine ∧
      levels regs pin.disableLine = levels boot pin.disableLine ∧
      levels regs pin.configLine = levels boot pin.configLine := by
    intro pin
    refine ⟨?_, ?_, ?_, ?_⟩ <;>
      exact others _ (@setup_not_output pin _ driven (by simp))
  refine ⟨fun pin member => ?_, ?_, fun pin member => ?_⟩
  · rw [(same pin).1, (same pin).2.1, (same pin).2.2.1]
    exact ready.outputs pin member
  · rw [(same switchPin).1, (same switchPin).2.1, (same switchPin).2.2.1]
    exact ready.switch
  · rw [(same pin).1, (same pin).2.2.2, (same pin).2.1]
    exact ready.uart pin member

end Ser2Ble.BleDrv
