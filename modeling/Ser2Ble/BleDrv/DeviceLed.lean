import Mathlib.Logic.Function.Basic
import Ser2Ble.Library.Blinker
import Ser2Ble.Library.Run
import Ser2Ble.Proj.Clock

/-!
# The link LED of `vendor/common/blt_led.c` and `ble_drv.c`

The callbacks of the link set the LED up, and the main loop polls it.  A setup
with both times blinks for ever, because nothing counts the repetitions down.
-/

namespace Ser2Ble.BleDrv

open Library Proj

/-! ## blt_led.c -/

/-- `led_cfg_t`. -/
structure LedCfg where
  onTimeMs : UInt16
  offTimeMs : UInt16
  repeatCount : UInt8
  priority : UInt8

/-- `device_led_t`, and the output levels of the pins. -/
structure DeviceLed where
  isOn : UInt8 := 0
  polar : UInt8 := 0
  repeatCount : UInt8 := 0
  priority : UInt8 := 0
  onTimeMs : UInt16 := 0
  offTimeMs : UInt16 := 0
  gpioLed : UInt32 := 0
  startTick : UInt32 := 0
  output : UInt32 → Bool := fun _ => false

namespace DeviceLed

/-- `device_led_on_off`, with its `gpio_write`. -/
def onOff (led : DeviceLed) (on : UInt8) : DeviceLed :=
  { led with
    output := Function.update led.output led.gpioLed (decide (on ^^^ led.polar ≠ 0))
    isOn := on }

/-- `device_led_init`. -/
def init (led : DeviceLed) (gpio : UInt32) (polarity : UInt8) : DeviceLed :=
  { led with gpioLed := gpio, polar := if polarity = 0 then 1 else 0 }.onOff 0

/-- `device_led_setup`. -/
def setup (led : DeviceLed) (ledCfg : LedCfg) (now : Nat) : DeviceLed :=
  let led := { led with
    onTimeMs := ledCfg.onTimeMs
    offTimeMs := ledCfg.offTimeMs
    repeatCount := ledCfg.repeatCount
    priority := ledCfg.priority }
  let led :=
    if ledCfg.repeatCount = 0xFF then { led with repeatCount := 0 }
    else if led.onTimeMs = 0 then
      { led with offTimeMs := led.offTimeMs * led.repeatCount.toUInt16, repeatCount := 1 }
    else if led.offTimeMs = 0 then
      { led with onTimeMs := led.onTimeMs * led.repeatCount.toUInt16, repeatCount := 1 }
    else led
  { led with startTick := clockTime now }.onOff (if led.onTimeMs ≠ 0 then 1 else 0)

/-- `CLOCK_SYS_CLOCK_1MS`. -/
def clockSysClock1ms : UInt32 := 16000

/-- `led_proc`. -/
def proc (led : DeviceLed) (now : Nat) : DeviceLed :=
  if led.isOn ≠ 0 then
    if clockTimeExceed now led.startTick (led.onTimeMs.toUInt32 * 1000) then
      let led := led.onOff 0
      if led.offTimeMs ≠ 0 then
        { led with startTick := led.startTick + led.onTimeMs.toUInt32 * clockSysClock1ms }
      else { led with repeatCount := 0 }
    else led
  else if clockTimeExceed now led.startTick (led.offTimeMs.toUInt32 * 1000) then
    if led.repeatCount ≠ 0 then
      let led := led.onOff 1
      { led with startTick := led.startTick + led.offTimeMs.toUInt32 * clockSysClock1ms }
    else led
  else led

/-- `device_led_process`. -/
def process (led : DeviceLed) (now : Nat) : DeviceLed :=
  if led.repeatCount ≠ 0 then led.proc now else led

end DeviceLed

/-! ## ble_drv.c -/

inductive LedMode where
  | on
  | off
  | shineSlow
  | shineFast

/-- `led_cfg`. -/
def ledCfg : LedMode → LedCfg
  | .on => ⟨100, 0, 0xFF, 0x00⟩
  | .off => ⟨0, 100, 0xFF, 0x00⟩
  | .shineSlow => ⟨500, 500, 0x01, 0x02⟩
  | .shineFast => ⟨250, 250, 0x01, 0x04⟩

/-- `BLE_LED_PIN`, `GPIO_PA5`. -/
def bleLedPin : UInt32 := 0x020

/-- `BLE_LED_LEVEL`. -/
def bleLedLevel : UInt8 := 0

/-- The calls that reach the LED, with the tick at which they read the clock. -/
inductive LedEvent where
  /-- `ble_connect_cb`. -/
  | connect (now : Nat)
  /-- `ble_terminate_cb`. -/
  | terminate (now : Nat)
  /-- `ble_start_advertis`. -/
  | startAdvertis (now : Nat)
  /-- `device_led_process` in the main loop. -/
  | process (now : Nat)

def LedEvent.now : LedEvent → Nat
  | connect now | terminate now | startAdvertis now | process now => now

def ledExec (led : DeviceLed) : LedEvent → DeviceLed
  | .connect now => led.setup (ledCfg .on) now
  | .terminate now => led.setup (ledCfg .shineSlow) now
  | .startAdvertis now => led.setup (ledCfg .shineSlow) now
  | .process now => led.process now

structure LedState where
  led : DeviceLed
  /-- The tick of the last call. -/
  now : Nat

def ledStep (s : LedState) (event : LedEvent) : Option LedState :=
  if s.now ≤ event.now then some ⟨ledExec s.led event, event.now⟩ else none

/-- After `ble_drv_init`. -/
def ledInit : LedState :=
  ⟨({} : DeviceLed).init bleLedPin bleLedLevel, 0⟩

abbrev LedTransition := Edge LedState LedEvent

abbrev LedRun := Run ledStep ledInit

/-- The pin is at the level `BLE_LED_LEVEL`. -/
def DeviceLed.Lit (led : DeviceLed) : Prop :=
  led.output bleLedPin = decide (bleLedLevel = 1)

instance (led : DeviceLed) : Decidable led.Lit :=
  inferInstanceAs (Decidable (_ = _))

/-! ## What the LED is to show -/

inductive Shown where
  | dark
  | steady
  /-- Blinking since tick `start`. -/
  | blinking (start : Nat)
  deriving DecidableEq

/-- What a call asks for. -/
def LedEvent.shown : LedEvent → Option Shown
  | .connect _ => some .steady
  | .terminate now | .startAdvertis now => some (.blinking now)
  | .process _ => none

/-- What the last call of a run that asked for anything asked for. -/
def shown (edges : List LedTransition) : Shown :=
  ((edges.filterMap fun edge => edge.event.shown).getLast?).getD .dark

/-- 500 ms in ticks. -/
def halfPeriod : Nat := 8000000

/-- Whether the LED is lit at tick `now`; it blinks once a second. -/
def Shown.LitAt (now : Nat) : Shown → Prop
  | dark => False
  | steady => True
  | blinking start => (now - start - 1) % (2 * halfPeriod) < halfPeriod

instance (now : Nat) : (wanted : Shown) → Decidable (wanted.LitAt now)
  | .dark => .isFalse id
  | .steady => .isTrue trivial
  | .blinking start =>
      inferInstanceAs (Decidable ((now - start - 1) % (2 * halfPeriod) < halfPeriod))

/-- The main loop gets round to the LED within half a period of the call before. -/
def Polled : LedTransition → Prop
  | ⟨source, .process now, _⟩ => now ≤ source.now + halfPeriod
  | _ => True

instance : (edge : LedTransition) → Decidable (Polled edge)
  | ⟨source, .process now, _⟩ => inferInstanceAs (Decidable (now ≤ source.now + halfPeriod))
  | ⟨_, .connect _, _⟩ | ⟨_, .terminate _, _⟩ | ⟨_, .startAdvertis _, _⟩ => .isTrue trivial

/-! ## One setup -/

/-- A time of the configuration in ticks. -/
def ticks (timeMs : UInt16) : Nat :=
  timeMs.toNat * 16000

theorem ticks_lt (timeMs : UInt16) : ticks timeMs < 2 ^ 30 := by
  have below := timeMs.toNat_lt
  unfold ticks
  omega

/-- A span that began less than 2 ^ 32 ticks ago is over when the test says so. -/
theorem spanOver_iff {timeMs : UInt16} {since now : Nat} (past : since ≤ now)
    (near : now < since + 2 ^ 32) :
    clockTimeExceed now (Clock.reading since) (timeMs.toUInt32 * 1000) = true ↔
      since + ticks timeMs < now := by
  have below := timeMs.toNat_lt
  have spanUs : (timeMs.toUInt32 * 1000).toNat = timeMs.toNat * 1000 := by
    rw [UInt32.toNat_mul, UInt16.toNat_toUInt32]
    change timeMs.toNat * 1000 % 2 ^ 32 = _
    omega
  rw [clockTimeExceed_iff (by omega), spanUs, clockTime, Clock.reading_sub past,
    Nat.mod_eq_of_lt (by omega), ticks]
  omega

theorem reading_add_ticks (since : Nat) (timeMs : UInt16) :
    Clock.reading since + timeMs.toUInt32 * DeviceLed.clockSysClock1ms =
      Clock.reading (since + ticks timeMs) := by
  rw [← UInt32.toNat_inj, Clock.reading, Clock.reading, ticks, UInt32.toNat_add, UInt32.toNat_mul,
    UInt16.toNat_toUInt32, UInt32.toNat_ofNat', UInt32.toNat_ofNat']
  change (_ + timeMs.toNat * 16000 % 2 ^ 32) % 2 ^ 32 = _
  omega

section Poll

variable {led : DeviceLed} {now : Nat}

theorem process_lit (busy : led.repeatCount ≠ 0) (isOn : led.isOn = 1) (off : led.offTimeMs ≠ 0) :
    led.process now =
      if clockTimeExceed now led.startTick (led.onTimeMs.toUInt32 * 1000) then
        { led.onOff 0 with
          startTick := led.startTick + led.onTimeMs.toUInt32 * DeviceLed.clockSysClock1ms }
      else led := by
  rw [DeviceLed.process, if_pos busy, DeviceLed.proc, if_pos (by simp [isOn])]
  split
  · exact if_pos off
  · rfl

theorem process_dark (busy : led.repeatCount ≠ 0) (isOn : led.isOn = 0) :
    led.process now =
      if clockTimeExceed now led.startTick (led.offTimeMs.toUInt32 * 1000) then
        { led.onOff 1 with
          startTick := led.startTick + led.offTimeMs.toUInt32 * DeviceLed.clockSysClock1ms }
      else led := by
  rw [DeviceLed.process, if_pos busy, DeviceLed.proc, if_neg (by simp [isOn])]
  split <;> rfl

end Poll

/-- The LED blinks as the lamp of `Blinker` does. -/
structure Blinks (cfg : LedCfg) (start now : Nat) (led : DeviceLed) : Prop where
  onTime : led.onTimeMs = cfg.onTimeMs
  offTime : led.offTimeMs = cfg.offTimeMs
  busy : led.repeatCount ≠ 0
  lamp : ∃ lamp : Blinker, lamp.InPhase (ticks cfg.onTimeMs) (ticks cfg.offTimeMs) start now ∧
    led.isOn = (if lamp.lit then 1 else 0) ∧ led.startTick = Clock.reading lamp.since

section Blinking

variable {cfg : LedCfg} {led : DeviceLed} {start before now : Nat}

/-- A setup with both times and a count that is not the special one starts to blink. -/
theorem setup_blinks (on : cfg.onTimeMs ≠ 0) (off : cfg.offTimeMs ≠ 0)
    (some : cfg.repeatCount ≠ 0) (counted : cfg.repeatCount ≠ 0xFF) (led : DeviceLed) (now : Nat) :
    Blinks cfg now now (led.setup cfg now) := by
  unfold DeviceLed.setup
  simp only [counted, on, off, if_false]
  exact ⟨rfl, rfl, some, ⟨true, now⟩, Blinker.InPhase.lighted, by simp [DeviceLed.onOff, on], rfl⟩

/-- A poll in time keeps the LED blinking; nothing lowers the count of repetitions. -/
theorem Blinks.process (blinks : Blinks cfg start before led) (off : cfg.offTimeMs ≠ 0)
    (ordered : before ≤ now) (soonOn : now ≤ before + ticks cfg.onTimeMs)
    (soonOff : now ≤ before + ticks cfg.offTimeMs) : Blinks cfg start now (led.process now) := by
  obtain ⟨onTime, offTime, busy, ⟨lit, since⟩, phase, isOn, startTick⟩ := blinks
  have past := phase.past
  have recent := phase.recent
  have onBelow := ticks_lt cfg.onTimeMs
  have offBelow := ticks_lt cfg.offTimeMs
  have polled := phase.poll ordered soonOn soonOff
  rw [Blinker.poll] at polled
  cases lit with
  | true =>
      change (if since + ticks cfg.onTimeMs < now then
        ⟨false, since + ticks cfg.onTimeMs⟩ else ⟨true, since⟩ : Blinker).InPhase _ _ _ _ at polled
      change before ≤ since + ticks cfg.onTimeMs at recent
      change since ≤ before at past
      have near : now < since + 2 ^ 32 := by omega
      rw [process_lit busy isOn (offTime ▸ off), startTick, onTime]
      have expiry := @spanOver_iff cfg.onTimeMs since now (past.trans ordered) near
      split
      · next passed =>
          rw [if_pos (expiry.mp passed)] at polled
          exact ⟨onTime, offTime, busy, _, polled, rfl, reading_add_ticks since cfg.onTimeMs⟩
      · next within =>
          rw [if_neg fun passed => within (expiry.mpr passed)] at polled
          exact ⟨onTime, offTime, busy, _, polled, isOn, startTick⟩
  | false =>
      change (if since + ticks cfg.offTimeMs < now then
        ⟨true, since + ticks cfg.offTimeMs⟩ else ⟨false, since⟩ : Blinker).InPhase _ _ _ _ at polled
      change before ≤ since + ticks cfg.offTimeMs at recent
      change since ≤ before at past
      have near : now < since + 2 ^ 32 := by omega
      rw [process_dark busy isOn, startTick, offTime]
      have expiry := @spanOver_iff cfg.offTimeMs since now (past.trans ordered) near
      split
      · next passed =>
          rw [if_pos (expiry.mp passed)] at polled
          exact ⟨onTime, offTime, busy, _, polled, rfl, reading_add_ticks since cfg.offTimeMs⟩
      · next within =>
          rw [if_neg fun passed => within (expiry.mpr passed)] at polled
          exact ⟨onTime, offTime, busy, _, polled, isOn, startTick⟩

end Blinking

/-! ## The pin -/

/-- The pin is at the level that `isOn` asks for. -/
structure Wired (led : DeviceLed) : Prop where
  pin : led.gpioLed = bleLedPin
  polar : led.polar = 1
  level : led.output bleLedPin = decide (led.isOn ^^^ 1 ≠ 0)

theorem Wired.onOff {led : DeviceLed} (pin : led.gpioLed = bleLedPin) (polar : led.polar = 1)
    (on : UInt8) : Wired (led.onOff on) where
  pin := pin
  polar := polar
  level := by simp [DeviceLed.onOff, pin, polar]

theorem Wired.setup {led : DeviceLed} (wired : Wired led) (cfg : LedCfg) (now : Nat) :
    Wired (led.setup cfg now) := by
  obtain ⟨pin, polar, _⟩ := wired
  unfold DeviceLed.setup
  refine Wired.onOff ?_ ?_ _
  · dsimp only
    split_ifs <;> exact pin
  · dsimp only
    split_ifs <;> exact polar

theorem Wired.process {led : DeviceLed} (wired : Wired led) (now : Nat) :
    Wired (led.process now) := by
  have switched := fun on => Wired.onOff wired.pin wired.polar on
  unfold DeviceLed.process DeviceLed.proc
  dsimp only
  split_ifs
  all_goals first
    | exact wired
    | exact ⟨(switched 0).pin, (switched 0).polar, (switched 0).level⟩
    | exact ⟨(switched 1).pin, (switched 1).polar, (switched 1).level⟩

/-! ## Runs -/

/-- The LED does what was asked for. -/
def Shows (now : Nat) (led : DeviceLed) : Shown → Prop
  | .dark => led.isOn = 0 ∧ led.repeatCount = 0
  | .steady => led.isOn = 1 ∧ led.repeatCount = 0
  | .blinking start => Blinks (ledCfg .shineSlow) start now led

theorem shows_process {led : DeviceLed} {wanted : Shown} {before now : Nat}
    (shows : Shows before led wanted) (ordered : before ≤ now)
    (soon : now ≤ before + halfPeriod) : Shows now (led.process now) wanted := by
  cases wanted with
  | dark =>
      rw [DeviceLed.process, if_neg (by simp [shows.2])]
      exact shows
  | steady =>
      rw [DeviceLed.process, if_neg (by simp [shows.2])]
      exact shows
  | blinking start => exact Blinks.process shows (by decide) ordered soon soon

/-- What a call shows is what it asks for, or what was asked for before it. -/
theorem shows_step {source target : LedState} {event : LedEvent} {wanted : Shown}
    (shows : Shows source.now source.led wanted) (taken : ledStep source event = some target)
    (polled : Polled ⟨source, event, target⟩) :
    Shows target.now target.led (event.shown.getD wanted) := by
  rw [ledStep, Option.ite_none_right_eq_some] at taken
  obtain ⟨ordered, same⟩ := taken
  cases same
  cases event with
  | connect now => exact ⟨rfl, rfl⟩
  | terminate now => exact setup_blinks (by decide) (by decide) (by decide) (by decide) _ now
  | startAdvertis now => exact setup_blinks (by decide) (by decide) (by decide) (by decide) _ now
  | process now => exact shows_process shows ordered polled

theorem shown_last (edges : List LedTransition) (edge : LedTransition) :
    shown (edges ++ [edge]) = edge.event.shown.getD (shown edges) := by
  rw [shown, filterMap_last, List.getLast?_append]
  cases edge.event.shown <;> rfl

theorem wired_step {source target : LedState} {event : LedEvent} (wired : Wired source.led)
    (taken : ledStep source event = some target) : Wired target.led := by
  rw [ledStep, Option.ite_none_right_eq_some] at taken
  obtain ⟨_, same⟩ := taken
  cases same
  cases event with
  | connect now => exact wired.setup _ now
  | terminate now => exact wired.setup _ now
  | startAdvertis now => exact wired.setup _ now
  | process now => exact wired.process now

theorem wired_init : Wired ledInit.led :=
  Wired.onOff rfl rfl 0

section Runs

variable {edges : List LedTransition} {start final : LedState}

theorem wired_run (wired : Wired start.led) (run : Run ledStep start edges final) :
    Wired final.led :=
  @Run.invariant _ _ _ _ _ _ (fun s => Wired s.led) wired wired_step run

theorem shows_run (run : LedRun edges final) (polled : ∀ edge ∈ edges, Polled edge) :
    Shows final.now final.led (shown edges) := by
  induction run with
  | refl => exact ⟨rfl, rfl⟩
  | tail run taken ih =>
      rw [shown_last]
      have before := ih fun edge member => polled edge (List.mem_append_left _ member)
      exact shows_step before taken (polled _ List.mem_concat_self)

theorem Wired.lit_iff {led : DeviceLed} (wired : Wired led) : led.Lit ↔ led.isOn ^^^ 1 = 0 := by
  rw [DeviceLed.Lit, wired.level]
  simp [bleLedLevel]

theorem Shows.lit_iff {led : DeviceLed} {wanted : Shown} {now : Nat} (wired : Wired led)
    (shows : Shows now led wanted) : led.Lit ↔ wanted.LitAt now := by
  rw [wired.lit_iff]
  cases wanted with
  | dark => simp [shows.1, Shown.LitAt]
  | steady => simp [shows.1, Shown.LitAt]
  | blinking start =>
      obtain ⟨lamp, phase, isOn, _⟩ := shows.lamp
      have lit := phase.lit_iff (by decide)
      change _ ↔ (now - start - 1) % (2 * halfPeriod) < halfPeriod
      rw [Nat.two_mul, isOn]
      change _ ↔ (now - start - 1) % (halfPeriod + halfPeriod) < halfPeriod at lit
      rw [← lit]
      cases lamp.lit <;> simp

/--
At every call the LED is dark before the link ever asked for anything, steady
after a connection, and otherwise blinking at exactly 1 Hz from the disconnection
or the start of advertising: delays of the main loop do not add up, and the
32-bit tick may wrap any number of times.
-/
theorem led_shows_link (run : LedRun edges final) (polled : ∀ edge ∈ edges, Polled edge) :
    final.led.Lit ↔ (shown edges).LitAt final.now := by
  have wired := wired_run wired_init run
  exact Shows.lit_iff wired (shows_run run polled)

/-- Half a period after the start of advertising, with the tick wrapping on the way. -/
def acrossWrap : List LedEvent :=
  [.startAdvertis 4294960000, .process 4302960000, .process 4302960001]

theorem led_shows_link_acrossWrap :
    ∃ edges final, edges.map Edge.event = acrossWrap ∧ LedRun edges final ∧ ¬ final.led.Lit := by
  have enabled : (follow ledStep ledInit acrossWrap).isSome = true := by decide +kernel
  obtain ⟨final, executed⟩ := Option.isSome_iff_exists.mp enabled
  obtain ⟨events, run⟩ := trace_run executed
  have polled : ∀ edge ∈ trace ledStep ledInit acrossWrap, Polled edge := by decide +kernel
  have wanted : shown (trace ledStep ledInit acrossWrap) = .blinking 4294960000 := by
    decide +kernel
  have now : (follow ledStep ledInit acrossWrap).map LedState.now = some 4302960001 := by
    decide +kernel
  rw [executed] at now
  refine ⟨_, final, events, run, ?_⟩
  rw [led_shows_link run polled, wanted, Option.some.inj now]
  decide

end Runs

end Ser2Ble.BleDrv
