import Ser2Ble.Library.Lines

/-!
# The pins of `proj/mcu_spec/gpio_8266.h`

Each port has eight registers from address `0x580` on; a pin is one bit of each.
A call of the driver is the list of its `BM_SET` and `BM_CLR`, in order.  The
pull resistors are two bits a pin in the analog registers from `0x0a` on.
-/

namespace Ser2Ble.Proj

open Library Lines

/-! ## The model -/

/-- The enumerators `GPIO_PA0` to `GPIO_PF1`; of port F the chip has two pins only. -/
structure GpioPin where
  port : Fin 6
  bit : Fin 8
  deriving DecidableEq, Repr

/-- The value of the enumerator. -/
def GpioPin.code (pin : GpioPin) : UInt32 :=
  UInt32.ofNat (0x100 * pin.port.val) ||| UInt32.ofNat (2 ^ pin.bit.val)

def gpioPA (bit : Fin 8) : GpioPin := ⟨0, bit⟩
def gpioPB (bit : Fin 8) : GpioPin := ⟨1, bit⟩
def gpioPC (bit : Fin 8) : GpioPin := ⟨2, bit⟩
def gpioPD (bit : Fin 8) : GpioPin := ⟨3, bit⟩
def gpioPE (bit : Fin 8) : GpioPin := ⟨4, bit⟩
def gpioPF (bit : Fin 8) : GpioPin := ⟨5, bit⟩

/-! The pins that the two products name. -/

def gpioPA0 : GpioPin := gpioPA 0
def gpioPA1 : GpioPin := gpioPA 1
def gpioPA5 : GpioPin := gpioPA 5
def gpioPB0 : GpioPin := gpioPB 0
def gpioPB3 : GpioPin := gpioPB 3
def gpioPB5 : GpioPin := gpioPB 5
def gpioPB6 : GpioPin := gpioPB 6
def gpioPC6 : GpioPin := gpioPC 6
def gpioPC7 : GpioPin := gpioPC 7
def gpioPD5 : GpioPin := gpioPD 5

def regGpioIe (i : UInt32) : Nat := (0x581 + ((i >>> (8 : UInt32)) <<< (3 : UInt32))).toNat

def regGpioOen (i : UInt32) : Nat := (0x582 + ((i >>> (8 : UInt32)) <<< (3 : UInt32))).toNat

def regGpioOut (i : UInt32) : Nat := (0x583 + ((i >>> (8 : UInt32)) <<< (3 : UInt32))).toNat

def regGpioGpioFunc (i : UInt32) : Nat := (0x586 + ((i >>> (8 : UInt32)) <<< (3 : UInt32))).toNat

def regGpioConfigFunc (i : UInt32) : Nat := (0x5b0 + (i >>> (8 : UInt32))).toNat

def regGpioConfigFunc6 : Nat := 0x5b6
def regGpioConfigFunc7 : Nat := 0x5b7

/-- `BM_SET`. -/
def bmSet (reg : Nat) (mask : UInt8) : Change := ⟨reg, mask, true⟩

/-- `BM_CLR`. -/
def bmClr (reg : Nat) (mask : UInt8) : Change := ⟨reg, mask, false⟩

def gpioSetOutputEn (pin value : UInt32) : List Change :=
  let bit := (pin &&& 0xff).toUInt8
  if value = 0 then [bmSet (regGpioOen pin) bit] else [bmClr (regGpioOen pin) bit]

def gpioSetInputEn (pin value : UInt32) : List Change :=
  let bit := (pin &&& 0xff).toUInt8
  if value ≠ 0 then [bmSet (regGpioIe pin) bit] else [bmClr (regGpioIe pin) bit]

def gpioWrite (pin value : UInt32) : List Change :=
  let bit := (pin &&& 0xff).toUInt8
  if value ≠ 0 then [bmSet (regGpioOut pin) bit] else [bmClr (regGpioOut pin) bit]

/-! ### `gpio_set_func` -/

def asGpio : UInt32 := 0
def asUart : UInt32 := 3
def asPwm : UInt32 := 4
def asI2c : UInt32 := 5
def asSpi : UInt32 := 6
def asSdm : UInt32 := 9
def asDmic : UInt32 := 10
def asSwm : UInt32 := 13
def asKs : UInt32 := 16
def asDebug : UInt32 := 17

/-- A label of the `switch` of `gpio_set_func`. -/
def labelled (pin : UInt32) (cases : List GpioPin) : Bool :=
  decide (pin ∈ cases.map GpioPin.code)

/-- The `switch` of `gpio_set_func`. -/
def setFuncSwitch (pin func : UInt32) : List Change :=
  let bit := (pin &&& 0xff).toUInt8
  let config := regGpioConfigFunc pin
  let config6 := regGpioConfigFunc6
  if labelled pin [gpioPA 0, gpioPA 2, gpioPA 3, gpioPB 2, gpioPB 3, gpioPB 4, gpioPB 5, gpioPB 6,
      gpioPB 7] then []
  else if labelled pin [gpioPA 1, gpioPA 4, gpioPA 5, gpioPA 6, gpioPC 5, gpioPD 2, gpioPD 3] then
    if func = asKs then [bmSet config bit]
    else if func = asDebug then [bmClr config bit, bmSet config6 0x10]
    else if func = asPwm then [bmClr config bit, bmClr config6 0x10]
    else []
  else if labelled pin [gpioPA 7] then
    if func = asKs then [bmSet config bit]
    else if func = asSwm then [bmClr config bit]
    else []
  else if labelled pin [gpioPB 0, gpioPB 1] then
    if func = asPwm then [bmClr config6 0x01, bmClr regGpioConfigFunc7 0x01] else []
  else if labelled pin [gpioPC 0, gpioPC 1, gpioPC 3, gpioPC 4] then
    if func = asKs then [bmSet config bit]
    else if func = asPwm then [bmClr config bit, bmClr config6 0xC0]
    else []
  else if labelled pin [gpioPC 2] then
    if func = asKs then [bmSet config bit]
    else if func = asPwm then [bmClr config bit]
    else []
  else if labelled pin [gpioPC 6, gpioPC 7] then
    if func = asKs then [bmSet config bit]
    else if func = asUart then [bmClr config bit, bmSet (regGpioIe pin) bit]
    else []
  else if labelled pin [gpioPD 0, gpioPD 1] then
    if func = asKs then [bmSet config bit]
    else if func = asUart then [bmClr config bit, bmSet config6 0x02, bmSet (regGpioIe pin) bit]
    else []
  else if labelled pin [gpioPD 6] then
    if func = asKs then [bmSet config bit] else []
  else if labelled pin [gpioPD 4, gpioPD 5, gpioPD 7, gpioPE 0, gpioPE 3] then
    if func = asKs then [bmSet config bit]
    else if func = asDebug then [bmClr config bit, bmSet config6 0x10]
    else []
  else if labelled pin [gpioPE 1, gpioPE 2] then
    if func = asKs then [bmSet config bit]
    else if func = asDmic then [bmClr config bit, bmSet (regGpioIe pin) bit]
    else []
  else if labelled pin [gpioPE 4, gpioPE 5] then
    if func = asKs then [bmSet config bit]
    else if func = asDebug then [bmClr config bit, bmSet config6 0x10]
    else if func = asSdm then [bmClr config bit, bmClr config6 0x10, bmSet (regGpioIe pin) bit]
    else []
  else if labelled pin [gpioPE 6] then
    if func = asKs then [bmSet config bit]
    else if func = asUart then [bmClr config bit, bmSet config6 0x20, bmSet (regGpioIe pin) 0x40]
    else if func = asSpi then [bmClr config bit, bmClr config6 0x20, bmSet (regGpioIe pin) 0x40]
    else []
  else if labelled pin [gpioPE 7] then
    if func = asKs then [bmSet config bit]
    else if func = asI2c ∨ func = asSpi then
      [bmClr config bit, bmSet (regGpioIe pin) 0x80, bmClr (regGpioOen pin) 0x80]
    else []
  else if labelled pin [gpioPF 0] then
    if func = asUart then [bmSet config6 0x20]
    else if func = asSpi then [bmClr config6 0x20, bmSet (regGpioIe pin) 0x01]
    else []
  else if labelled pin [gpioPF 1] then
    if func = asI2c then [bmSet (regGpioIe pin) 0x02] else []
  else []

def gpioSetFunc (pin func : UInt32) : List Change :=
  let bit := (pin &&& 0xff).toUInt8
  if func = asGpio then [bmSet (regGpioGpioFunc pin) bit]
  else bmClr (regGpioGpioFunc pin) bit :: setFuncSwitch pin func

/-! ### The pull resistors -/

def pmPinUpDownFloat : UInt32 := 0
def pmPinPullup1M : UInt32 := 1
def pmPinPullup10K : UInt32 := 2
def pmPinPulldown100K : UInt32 := 3

/-- The value that `up_down` stands for: what is none of the enumerators is the last of them. -/
def upDownValue (upDown : UInt32) : UInt8 :=
  if upDown = pmPinUpDownFloat then 0
  else if upDown = pmPinPullup1M then 1
  else if upDown = pmPinPullup10K then 2
  else 3

/-- `base_ana_reg`. -/
def baseAnaReg (gpio : UInt32) : UInt8 :=
  let pin := (gpio &&& 0xff).toUInt8
  let reg := (0x0b + ((gpio >>> (8 : UInt32)) <<< (1 : UInt32))).toUInt8
  if pin &&& 0x03 ≠ 0 then reg - 1
  else if pin &&& 0xc0 ≠ 0 then reg + 1
  else reg

/-- `mask_not` and `shift_num`. -/
def maskShift (pin : UInt8) : UInt8 × UInt8 :=
  if pin &&& 0x88 ≠ 0 then (0xf3, 2)
  else if pin &&& 0x11 ≠ 0 then (0xcf, 4)
  else if pin &&& 0x22 ≠ 0 then (0x3f, 6)
  else (0xfc, 0)

def gpioSetupUpDownResistor (analog : Nat → UInt8) (gpio upDown : UInt32) : Nat → UInt8 :=
  let (maskNot, shiftNum) := maskShift (gpio &&& 0xff).toUInt8
  let reg := (baseAnaReg gpio).toNat
  Cells.store analog reg ((analog reg &&& maskNot) ||| (upDownValue upDown <<< shiftNum))

/-! ### `gpio_init` -/

/-- The two words that `gpio_init` writes for a port, low byte first. -/
def portSettings (inputEnable outputDisable dataOut dataStrength gpioFunc : UInt8) : List UInt8 :=
  [0, inputEnable, outputDisable, dataOut, 0, dataStrength, gpioFunc, 0]

/-- `gpio_init` with the settings of `gpio_default_8266.h`: the registers of the ports. -/
def gpioInit (regs : Nat → UInt8) : Nat → UInt8 :=
  let regs := Cells.copy regs 0x580 (portSettings 0x0D 0xFF 0x00 0xFF 0xF2)
  let regs := Cells.copy regs 0x588 (portSettings 0x0C 0xFF 0x00 0xFF 0xF3)
  let regs := Cells.copy regs 0x590 (portSettings 0x00 0xFF 0x00 0xFF 0xFF)
  let regs := Cells.copy regs 0x598 (portSettings 0x00 0xFF 0x00 0xFF 0xFF)
  let regs := Cells.copy regs 0x5a0 (portSettings 0x00 0xFF 0x00 0xFF 0xFF)
  Cells.copy regs 0x5a8 (portSettings 0x00 0x03 0x00 0x03 0x03)

/-- The analog registers that `gpio_init` writes, from the resistor of `PA0` on. -/
def gpioInitAnalog (analog : Nat → UInt8) : Nat → UInt8 :=
  let areg := analog 0x0a &&& 0x0f
  Cells.copy analog 0x0a [areg ||| 0x10, 0, 0, 0x04, 0, 0, 0, 0, 0, 0, 0]

/-! ### Calls of the products -/

/-- `!value`. -/
def lnot (value : UInt8) : UInt32 :=
  if value = 0 then 1 else 0

/-- The calls that make a pin an output. -/
def outputCalls (pin : GpioPin) : List Change :=
  gpioSetFunc pin.code asGpio ++ gpioSetInputEn pin.code 0 ++ gpioSetOutputEn pin.code 1

/-- The calls of `ys_switch_register`, which make a pin an input. -/
def inputCalls (pin : GpioPin) : List Change :=
  gpioSetFunc pin.code asGpio ++ gpioSetOutputEn pin.code 0 ++ gpioSetInputEn pin.code 1

/-- `UART_GPIO_CFG_PC6_PC7`. -/
def uartGpioCfgPC6PC7 : List Change :=
  gpioSetFunc (gpioPC6).code asUart ++ gpioSetFunc (gpioPC7).code asUart

/-- The writes that show the low three bits of a value on LEDs, lit when their pin is low. -/
def threeLedCalls (first second third : GpioPin) (value : UInt8) : List Change :=
  gpioWrite first.code (lnot (value &&& 0x01)) ++ gpioWrite second.code (lnot (value &&& 0x02)) ++
    gpioWrite third.code (lnot (value &&& 0x04))

/-! ## The lines of a pin -/

namespace GpioPin

/-- Whether the pin is read. -/
def inputLine (pin : GpioPin) : Line :=
  (0x581 + 8 * pin.port.val, pin.bit)

/-- Whether the pin is not driven. -/
def disableLine (pin : GpioPin) : Line :=
  (0x582 + 8 * pin.port.val, pin.bit)

/-- The level that the pin is driven to. -/
def outputLine (pin : GpioPin) : Line :=
  (0x583 + 8 * pin.port.val, pin.bit)

/-- Whether the pin is general purpose, and not wired to a module of the chip. -/
def functionLine (pin : GpioPin) : Line :=
  (0x586 + 8 * pin.port.val, pin.bit)

/-- Which of its modules a pin is wired to when it is not general purpose. -/
def configLine (pin : GpioPin) : Line :=
  (0x5b0 + pin.port.val, pin.bit)

theorem code_registers (pin : GpioPin) : regGpioIe pin.code = pin.inputLine.1 ∧
    regGpioOen pin.code = pin.disableLine.1 ∧ regGpioOut pin.code = pin.outputLine.1 ∧
    regGpioGpioFunc pin.code = pin.functionLine.1 ∧ (pin.code &&& 0xff).toUInt8 = mask pin.bit := by
  obtain ⟨port, bit⟩ := pin
  revert port bit
  decide

end GpioPin

/-- Every call on a pin drives a line of it. -/
theorem gpioSetOutputEn_eq (pin : GpioPin) (value : UInt32) :
    gpioSetOutputEn pin.code value = [drive pin.disableLine (decide (value = 0))] := by
  obtain ⟨_, register, _, _, bit⟩ := pin.code_registers
  by_cases zero : value = 0 <;>
    simp [gpioSetOutputEn, drive, bmSet, bmClr, zero, register, bit, GpioPin.disableLine]

theorem gpioSetInputEn_eq (pin : GpioPin) (value : UInt32) :
    gpioSetInputEn pin.code value = [drive pin.inputLine (decide (value ≠ 0))] := by
  obtain ⟨register, _, _, _, bit⟩ := pin.code_registers
  by_cases zero : value = 0 <;>
    simp [gpioSetInputEn, drive, bmSet, bmClr, zero, register, bit, GpioPin.inputLine]

theorem gpioWrite_eq (pin : GpioPin) (value : UInt32) :
    gpioWrite pin.code value = [drive pin.outputLine (decide (value ≠ 0))] := by
  obtain ⟨_, _, register, _, bit⟩ := pin.code_registers
  by_cases zero : value = 0 <;>
    simp [gpioWrite, drive, bmSet, bmClr, zero, register, bit, GpioPin.outputLine]

theorem gpioSetFunc_gpio (pin : GpioPin) :
    gpioSetFunc pin.code asGpio = [drive pin.functionLine true] := by
  obtain ⟨_, _, _, register, bit⟩ := pin.code_registers
  simp [gpioSetFunc, drive, bmSet, register, bit, GpioPin.functionLine]

theorem outputCalls_eq (pin : GpioPin) : outputCalls pin =
    [drive pin.functionLine true, drive pin.inputLine false, drive pin.disableLine false] := by
  rw [outputCalls, gpioSetFunc_gpio, gpioSetInputEn_eq, gpioSetOutputEn_eq]
  rfl

theorem inputCalls_eq (pin : GpioPin) : inputCalls pin =
    [drive pin.functionLine true, drive pin.disableLine true, drive pin.inputLine true] := by
  rw [inputCalls, gpioSetFunc_gpio, gpioSetInputEn_eq, gpioSetOutputEn_eq]
  rfl

theorem GpioPin.outputLine_inj {first second : GpioPin} :
    first.outputLine = second.outputLine ↔ first = second := by
  obtain ⟨port, bit⟩ := first
  obtain ⟨port', bit'⟩ := second
  simp [outputLine, Fin.ext_iff]

theorem lnot_ne_zero (value : UInt8) : decide (lnot value ≠ 0) = decide (value = 0) := by
  unfold lnot
  split <;> simp [*]

theorem widened_ne_zero (value : UInt8) : decide (value.toUInt32 ≠ 0) = decide (value ≠ 0) := by
  rw [Bool.eq_iff_iff, decide_eq_true_iff, decide_eq_true_iff, ne_eq, ne_eq, ← UInt32.toNat_inj,
    ← UInt8.toNat_inj, UInt8.toNat_toUInt32]
  rfl

theorem threeLedCalls_eq (first second third : GpioPin) (value : UInt8) :
    threeLedCalls first second third value =
      [drive first.outputLine (decide (value &&& 0x01 = 0)),
        drive second.outputLine (decide (value &&& 0x02 = 0)),
        drive third.outputLine (decide (value &&& 0x04 = 0))] := by
  simp only [threeLedCalls, gpioWrite_eq, lnot_ne_zero]
  rfl

theorem threeLedCalls_only (first second third : GpioPin) (value : UInt8) :
    DrivesOnly [first.outputLine, second.outputLine, third.outputLine]
      (threeLedCalls first second third value) := by
  rw [threeLedCalls_eq]
  exact .cons _ (by simp) (.cons _ (by simp) (.cons _ (by simp) .nil))

/-- Each of three different LEDs shows its bit. -/
theorem levels_threeLedCalls (regs : Nat → UInt8) {first second third : GpioPin}
    (apart : [first, second, third].Nodup) (value : UInt8) :
    let shown := execAll regs (threeLedCalls first second third value)
    levels shown first.outputLine = decide (value &&& 0x01 = 0) ∧
      levels shown second.outputLine = decide (value &&& 0x02 = 0) ∧
      levels shown third.outputLine = decide (value &&& 0x04 = 0) := by
  simp only [List.nodup_cons, List.mem_cons, List.not_mem_nil, or_false, not_or] at apart
  obtain ⟨⟨apart12, apart13⟩, apart23, _⟩ := apart
  simp only [threeLedCalls_eq, levels_execAll, lastHigh_cons, covers_drive, GpioPin.outputLine_inj]
  simp [apart12, apart13, apart23, Ne.symm apart12, Ne.symm apart13, Ne.symm apart23]

/-! ## Selecting a function -/

/-- The two pins of the UART are taken from the program and read by the chip. -/
theorem uartGpioCfgPC6PC7_eq : uartGpioCfgPC6PC7 =
    [drive (gpioPC6).functionLine false, drive (gpioPC6).configLine false,
      drive (gpioPC6).inputLine true, drive (gpioPC7).functionLine false,
      drive (gpioPC7).configLine false, drive (gpioPC7).inputLine true] := by
  decide

/-- The functions that the `switch` names. -/
def namedFunctions : List UInt32 :=
  [asUart, asPwm, asI2c, asSpi, asSdm, asDmic, asSwm, asKs, asDebug]

/-- What a case of the `switch` may write: the function registers and two lines of its pin. -/
def switchWrites (pin : GpioPin) (change : Change) : Prop :=
  0x5b0 ≤ change.register ∨ change = drive pin.inputLine true ∨
    change = drive pin.disableLine false

instance (pin : GpioPin) (change : Change) : Decidable (switchWrites pin change) :=
  inferInstanceAs (Decidable (_ ∨ _))

theorem setFuncSwitch_named {func : UInt32} (named : func ∈ namedFunctions) (pin : GpioPin) :
    ∀ change ∈ setFuncSwitch pin.code func, switchWrites pin change := by
  -- over the list, since deciding it for every `func` would try all 32-bit values
  have each : namedFunctions.all (fun func => decide (∀ (port : Fin 6) (bit : Fin 8),
      ∀ change ∈ setFuncSwitch (GpioPin.mk port bit).code func,
        switchWrites ⟨port, bit⟩ change)) = true := by
    decide +kernel
  exact of_decide_eq_true (List.all_eq_true.mp each func named) pin.port pin.bit

theorem setFuncSwitch_unnamed {func : UInt32} (unnamed : func ∉ namedFunctions) (pin : UInt32) :
    setFuncSwitch pin func = [] := by
  simp only [namedFunctions, List.mem_cons, List.not_mem_nil, or_false, not_or] at unnamed
  simp [setFuncSwitch, unnamed]

theorem setFuncSwitch_writes (pin : GpioPin) (func : UInt32) :
    ∀ change ∈ setFuncSwitch pin.code func, switchWrites pin change := by
  rcases Classical.em (func ∈ namedFunctions) with named | unnamed
  · exact setFuncSwitch_named named pin
  · rw [setFuncSwitch_unnamed unnamed]
    exact nofun

/-- A call sets the function line first; what follows is in the `switch`. -/
theorem gpioSetFunc_eq (pin : GpioPin) (func : UInt32) :
    gpioSetFunc pin.code func = drive pin.functionLine (decide (func = asGpio)) ::
      if func = asGpio then [] else setFuncSwitch pin.code func := by
  obtain ⟨_, _, _, register, bit⟩ := pin.code_registers
  by_cases gpio : func = asGpio <;>
    simp [gpioSetFunc, drive, bmSet, bmClr, gpio, register, bit, GpioPin.functionLine]

/-- The four lines by which the program handles a pin. -/
def GpioPin.lines (pin : GpioPin) : List Line :=
  [pin.inputLine, pin.disableLine, pin.outputLine, pin.functionLine]

/-- The lines are bits of the eight registers of the port. -/
theorem GpioPin.line_place {pin : GpioPin} {line : Line} (member : line ∈ pin.lines) :
    line.1 / 8 = 0xb0 + pin.port.val ∧ line.2 = pin.bit := by
  have port := pin.port.isLt
  simp only [lines, List.mem_cons, List.not_mem_nil, or_false] at member
  rcases member with rfl | rfl | rfl | rfl <;>
    simp only [inputLine, disableLine, outputLine, functionLine, and_true] <;> omega

/-- Different pins have no line in common. -/
theorem GpioPin.lines_apart {pin other : GpioPin} {line : Line} (member : line ∈ pin.lines)
    (shared : line ∈ other.lines) : other = pin := by
  obtain ⟨port, bit⟩ := line_place member
  obtain ⟨port', bit'⟩ := line_place shared
  obtain ⟨⟨_, _⟩, _⟩ := pin
  obtain ⟨⟨_, _⟩, _⟩ := other
  simp only [GpioPin.mk.injEq, Fin.mk.injEq] at port port' bit bit' ⊢
  exact ⟨by omega, bit'.symm.trans bit⟩

/-- The `switch` writes no line of a pin but the two directions of its own. -/
theorem switchWrites_covers {pin owner : GpioPin} {change : Change} {line : Line}
    (writes : switchWrites pin change) (member : line ∈ owner.lines)
    (free : line ≠ pin.inputLine ∧ line ≠ pin.disableLine) : change.covers line = false := by
  rcases writes with configured | rfl | rfl
  · have place := (GpioPin.line_place member).1
    have port := owner.port.isLt
    rw [Change.covers, decide_eq_false (by omega), Bool.false_and]
  · rw [covers_drive, decide_eq_false free.1]
  · rw [covers_drive, decide_eq_false free.2]

/-- After a call the lines of pins are where they were, but for the function and the directions. -/
theorem levels_gpioSetFunc (regs : Nat → UInt8) (pin : GpioPin) (func : UInt32) {owner : GpioPin}
    {line : Line} (member : line ∈ owner.lines)
    (free : line ≠ pin.inputLine ∧ line ≠ pin.disableLine) :
    levels (execAll regs (gpioSetFunc pin.code func)) line =
      if line = pin.functionLine then decide (func = asGpio) else levels regs line := by
  have rest : ∀ change ∈ (if func = asGpio then [] else setFuncSwitch pin.code func),
      change.covers line = false := by
    intro change within
    split at within
    · cases within
    · exact switchWrites_covers (setFuncSwitch_writes pin func change within) member free
  rw [gpioSetFunc_eq, execAll, List.foldl_cons]
  refine (levels_other _ rest).trans ?_
  rw [levels_exec, covers_drive]
  simp [drive]

/-- What one selects for a pin changes no other pin and not the level that the pin is driven to. -/
theorem function_selected (regs : Nat → UInt8) (pin : GpioPin) (func : UInt32) :
    let selected := execAll regs (gpioSetFunc pin.code func)
    levels selected pin.functionLine = decide (func = asGpio) ∧
      levels selected pin.outputLine = levels regs pin.outputLine ∧
      ∀ other ≠ pin, ∀ line ∈ other.lines, levels selected line = levels regs line := by
  have functionFree : pin.functionLine ≠ pin.inputLine ∧ pin.functionLine ≠ pin.disableLine := by
    simp [GpioPin.functionLine, GpioPin.inputLine, GpioPin.disableLine]
  have outputFree : pin.outputLine ≠ pin.inputLine ∧ pin.outputLine ≠ pin.disableLine := by
    simp [GpioPin.outputLine, GpioPin.inputLine, GpioPin.disableLine]
  have different : pin.outputLine ≠ pin.functionLine := by
    simp [GpioPin.outputLine, GpioPin.functionLine]
  refine ⟨?_, ?_, ?_⟩
  · rw [@levels_gpioSetFunc regs pin func pin _ (by simp [GpioPin.lines]) functionFree, if_pos rfl]
  · rw [@levels_gpioSetFunc regs pin func pin _ (by simp [GpioPin.lines]) outputFree,
      if_neg different]
  · intro other apart line member
    have foreign : ∀ own ∈ pin.lines, line ≠ own :=
      fun own shared same => apart (GpioPin.lines_apart (same ▸ shared) member)
    rw [levels_gpioSetFunc regs pin func member
      ⟨foreign _ (by simp [GpioPin.lines]), foreign _ (by simp [GpioPin.lines])⟩,
      if_neg (foreign _ (by simp [GpioPin.lines]))]

/-! ## The resistors -/

namespace GpioPin

/-- The analog register of the resistor of a pin. -/
def pullRegister (pin : GpioPin) : Nat :=
  0x0a + (8 * pin.port.val + pin.bit.val + 2) / 4

/-- The field of the pin in the register: `PX2` and `PX6` come first. -/
def pullPlace (pin : GpioPin) : Fin 4 :=
  ⟨(pin.bit.val + 2) % 4, Nat.mod_lt _ (by decide)⟩

/-- The resistor of a pin. -/
def pull (analog : Nat → UInt8) (pin : GpioPin) : UInt8 :=
  field (analog pin.pullRegister) pin.pullPlace

theorem pull_inj {pin other : GpioPin} (register : other.pullRegister = pin.pullRegister)
    (place : other.pullPlace = pin.pullPlace) : other = pin := by
  obtain ⟨⟨port, _⟩, ⟨bit, _⟩⟩ := pin
  obtain ⟨⟨port', _⟩, ⟨bit', _⟩⟩ := other
  simp only [pullRegister, pullPlace, Fin.mk.injEq, GpioPin.mk.injEq] at register place ⊢
  omega

/-- The tables of `gpio_setup_up_down_resistor` hit the field of the pin. -/
theorem code_pull (pin : GpioPin) : (baseAnaReg pin.code).toNat = pin.pullRegister ∧
    maskShift (pin.code &&& 0xff).toUInt8 =
      (~~~((0x03 : UInt8) <<< shift pin.pullPlace), shift pin.pullPlace) := by
  obtain ⟨port, bit⟩ := pin
  revert port bit
  decide

end GpioPin

theorem upDownValue_small (upDown : UInt32) :
    ∃ bits : Fin 4, UInt8.ofNat bits = upDownValue upDown := by
  unfold upDownValue
  split_ifs
  · exact ⟨0, rfl⟩
  · exact ⟨1, rfl⟩
  · exact ⟨2, rfl⟩
  · exact ⟨3, rfl⟩

/-- A call sets the resistor of its pin and leaves those of all others as they are. -/
theorem resistor_selected (analog : Nat → UInt8) (pin other : GpioPin) (upDown : UInt32) :
    other.pull (gpioSetupUpDownResistor analog pin.code upDown) =
      if other = pin then upDownValue upDown else other.pull analog := by
  obtain ⟨register, masks⟩ := pin.code_pull
  obtain ⟨bits, value⟩ := upDownValue_small upDown
  have written : gpioSetupUpDownResistor analog pin.code upDown = Cells.store analog
      pin.pullRegister (setField (analog pin.pullRegister) pin.pullPlace bits) := by
    rw [gpioSetupUpDownResistor, masks, register, setField, value]
  rw [written, GpioPin.pull]
  rcases Classical.em (other.pullRegister = pin.pullRegister) with same | elsewhere
  · rw [same, Cells.store_same, field_setField, value, GpioPin.pull, same]
    rcases Classical.em (other.pullPlace = pin.pullPlace) with place | apart
    · rw [if_pos place, if_pos (GpioPin.pull_inj same place)]
    · rw [if_neg apart, if_neg fun equal => apart (congrArg _ equal)]
  · rw [Cells.store_other _ _ elsewhere, if_neg fun equal => elsewhere (congrArg _ equal),
      GpioPin.pull]

/-! ## After `gpio_init` -/

/-- `gpio_init` leaves every pin low. -/
theorem levels_gpioInit (regs : Nat → UInt8) (pin : GpioPin) :
    levels (gpioInit regs) pin.outputLine = false := by
  obtain ⟨port, bit⟩ := pin
  have low : gpioInit regs (0x583 + 8 * port.val) = 0 := by
    match port with
    | 0 | 1 | 2 | 3 | 4 | 5 => rfl
  rw [levels, GpioPin.outputLine, low]
  exact Nat.zero_testBit _

/-- The pins of the chip: `PF2` to `PF7` are missing. -/
def GpioPin.Bonded (pin : GpioPin) : Prop :=
  pin.port = 5 → pin.bit.val < 2

instance (pin : GpioPin) : Decidable pin.Bonded :=
  inferInstanceAs (Decidable (_ → _))

theorem gpioInitAnalog_rest (analog : Nat → UInt8) (i : Fin 10) :
    gpioInitAnalog analog (0x0b + i) = if i = 2 then 0x04 else 0 := by
  match i with
  | 0 | 1 | 2 | 3 | 4 | 5 | 6 | 7 | 8 | 9 => rfl

/-- All but the first two pins have their field in the registers that are written whole. -/
theorem pull_rest : ∀ (port : Fin 6) (bit : Fin 8), (GpioPin.mk port bit).Bonded →
    GpioPin.mk port bit ≠ gpioPA0 → GpioPin.mk port bit ≠ gpioPA1 →
    ∃ i : Fin 10, (GpioPin.mk port bit).pullRegister = 0x0b + i.val ∧
      field (if i = 2 then 0x04 else 0) (GpioPin.mk port bit).pullPlace =
        if GpioPin.mk port bit = gpioPB3 then 1 else 0 := by
  decide

/-- `gpio_init` pulls up `PA0` and `PB3`, weakly, and lets all other pins float. -/
theorem pull_gpioInitAnalog (analog : Nat → UInt8) {pin : GpioPin} (bonded : pin.Bonded) :
    pin.pull (gpioInitAnalog analog) =
      if pin = gpioPA0 ∨ pin = gpioPB3 then upDownValue pmPinPullup1M
      else upDownValue pmPinUpDownFloat := by
  have first : gpioInitAnalog analog 0x0a = (analog 0x0a &&& 0x0f) ||| 0x10 := rfl
  have cleared : field 0x0f 2 = 0 ∧ field 0x0f 3 = 0 := by decide
  rcases Classical.em (pin = gpioPA0) with rfl | notFirst
  · change field (gpioInitAnalog analog 0x0a) 2 = _
    rw [first, field_or, field_and, cleared.1, UInt8.and_zero]
    rfl
  rcases Classical.em (pin = gpioPA1) with rfl | notSecond
  · change field (gpioInitAnalog analog 0x0a) 3 = _
    rw [first, field_or, field_and, cleared.2, UInt8.and_zero]
    rfl
  obtain ⟨i, register, value⟩ := pull_rest pin.port pin.bit bonded notFirst notSecond
  rw [GpioPin.pull, register, gpioInitAnalog_rest, value]
  simp only [notFirst, false_or]
  rfl

end Ser2Ble.Proj
