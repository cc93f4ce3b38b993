import Ser2Ble.App.NusReceive
import Ser2Ble.BleDrv.Pins
import Ser2Ble.Ser2Hid.MainLoop

/-!
# The lock LEDs of `vendor/826x_ser2hid`

The host writes its lock state into the output report, from a callback of the
BLE stack; every pass of `ser2hid_process` copies it to three pins.  The link LED
is driven through the registers of another port.
-/

namespace Ser2Ble.Ser2Hid

open Library Lines Proj YsUart BleDrv
open App (RfPacketAttWrite)

/-! ## The model -/

def caplockLedPin : GpioPin := gpioPB6
def numlockLedPin : GpioPin := gpioPB5
def scrlockLedPin : GpioPin := gpioPB0

/--
`regs` and `analog` are what the program has written to the registers of the pins;
the closed stack is taken to leave them alone.
-/
structure LampState where
  hid : HidState
  /-- the one byte of `reportKeyboardOut` -/
  reportKeyboardOut : UInt8
  link : LedState
  regs : Nat → UInt8
  analog : Nat → UInt8

inductive LampEvent where
  | hid (event : HidEvent)
  /-- a write of the host to the output report; `behind` is the byte after an empty one -/
  | keyOutWrite (packet : RfPacketAttWrite) (behind : UInt8)
  | link (event : LedEvent)

/-- `keyOutWrite`. -/
def keyOutWrite (s : LampState) (packet : RfPacketAttWrite) (behind : UInt8) : LampState :=
  { s with reportKeyboardOut := packet.firstByte behind }

/-- `ble_keyboard_leds`. -/
def bleKeyboardLeds (s : LampState) : UInt8 :=
  s.reportKeyboardOut

/-- The end of `ser2hid_process`. -/
def lockLedCalls (ledValue : UInt8) : List Change :=
  threeLedCalls numlockLedPin caplockLedPin scrlockLedPin ledValue

/-- The writes of a step of the device. -/
def hidCalls (s : LampState) : HidEvent → List Change
  | .keyCheck _ => lockLedCalls (bleKeyboardLeds s)
  | _ => []

/-- The calls of `ser2hid_init` in order. -/
def bootCalls : List Change :=
  outputCalls caplockLedPin ++ outputCalls numlockLedPin ++ outputCalls scrlockLedPin ++
    outputCalls linkLedPin ++ onOffCalls ledInit.led 0 ++ uartGpioCfgPC6PC7 ++ inputCalls switchPin

/-- `gpio_init` and `ser2hid_init`. -/
def bootRegisters (regs : Nat → UInt8) : Nat → UInt8 :=
  execAll (gpioInit regs) bootCalls

def lampInit (gpioRead : UInt32) (regs analog : Nat → UInt8) : LampState where
  hid := ser2hidInit gpioRead
  reportKeyboardOut := 0
  link := ledInit
  regs := bootRegisters regs
  analog := bootAnalog analog

def lampStep (s : LampState) : LampEvent → Option LampState
  | .hid event => (hidStep s.hid event).map fun hid =>
      { s with hid := hid, regs := execAll s.regs (hidCalls s event) }
  | .keyOutWrite packet behind =>
      if s.hid.place = .sdk then some (keyOutWrite s packet behind) else none
  | .link event => (ledStep s.link event).map fun link =>
      { s with link := link, regs := execAll s.regs (linkCalls s.link.led event) }

abbrev LampTransition := Edge LampState LampEvent

abbrev LampRun (gpioRead : UInt32) (regs analog : Nat → UInt8) :
    List LampTransition → LampState → Prop :=
  Run lampStep (lampInit gpioRead regs analog)

/-! ## What the host wrote and what the pins show -/

/-- The last report of the host, 0 before the first. -/
def hostReport (edges : List LampTransition) : UInt8 :=
  (edges.filterMap fun edge =>
    match edge.event with
    | .keyOutWrite packet behind => some (packet.firstByte behind)
    | _ => none).getLast?.getD 0

/-- The end of a `ser2hid_process`. -/
def LampEvent.isPass : LampEvent → Bool
  | .hid (.keyCheck _) => true
  | _ => false

/-- The pins show a report: low, with the LED lit, where its bit is set. -/
structure Locks (regs : Nat → UInt8) (report : UInt8) : Prop where
  numlock : levels regs numlockLedPin.outputLine = decide (report &&& 0x01 = 0)
  caplock : levels regs caplockLedPin.outputLine = decide (report &&& 0x02 = 0)
  scrlock : levels regs scrlockLedPin.outputLine = decide (report &&& 0x04 = 0)

def lockPins : List GpioPin :=
  [numlockLedPin, caplockLedPin, scrlockLedPin]

theorem Locks.congr {regs regs' : Nat → UInt8} {report : UInt8} (locks : Locks regs report)
    (same : ∀ pin ∈ lockPins, levels regs' pin.outputLine = levels regs pin.outputLine) :
    Locks regs' report where
  numlock := (same _ (by decide)).trans locks.numlock
  caplock := (same _ (by decide)).trans locks.caplock
  scrlock := (same _ (by decide)).trans locks.scrlock

theorem locks_pass (regs : Nat → UInt8) (report : UInt8) :
    Locks (execAll regs (lockLedCalls report)) report := by
  obtain ⟨numlock, caplock, scrlock⟩ := @levels_threeLedCalls regs numlockLedPin caplockLedPin
    scrlockLedPin (by decide) report
  exact ⟨numlock, caplock, scrlock⟩

/-! ## Every step -/

/-- Only `ser2hid_process` takes the main loop to the switch. -/
theorem place_scan {source target : HidState} {event : HidEvent}
    (taken : hidStep source event = some target) (quiet : (LampEvent.hid event).isPass = false)
    (place : target.place = .scan) : source.place = .scan := by
  obtain ⟨calls, _, move⟩ := hidStep_move taken
  cases move with
  | process => cases place
  | keyCheck => cases quiet
  | scan gpioRead now =>
      rw [switchScan_frame] at place
      cases place
  | irq | statement | check | push | echo | handlerReturn => exact place

/-- A step that is not the end of a pass leaves the three pins alone. -/
theorem quiet_step {source target : LampState} {event : LampEvent} (wired : Wired source.link.led)
    (taken : lampStep source event = some target) (quiet : event.isPass = false) :
    ∀ pin ∈ lockPins, levels target.regs pin.outputLine = levels source.regs pin.outputLine := by
  intro pin member
  cases event with
  | hid event =>
      obtain ⟨hid, _, same⟩ := Option.map_eq_some_iff.mp taken
      subst same
      cases event with
      | keyCheck now => cases quiet
      | _ => rfl
  | keyOutWrite packet behind =>
      obtain ⟨_, same⟩ := Option.ite_none_right_eq_some.mp taken
      cases same
      rfl
  | link event =>
      obtain ⟨link, _, same⟩ := Option.map_eq_some_iff.mp taken
      subst same
      have apart : ∀ pin ∈ lockPins, pin.outputLine ∉ [linkLedPin.outputLine] := by decide
      exact (link_only wired event).levels_eq source.regs _ (apart pin member)

/-- The end of a pass shows the report. -/
theorem pass_step {source target : LampState} {event : LampEvent}
    (taken : lampStep source event = some target) (pass : event.isPass = true) :
    Locks target.regs source.reportKeyboardOut ∧
      target.reportKeyboardOut = source.reportKeyboardOut := by
  cases event with
  | hid event =>
      obtain ⟨hid, _, same⟩ := Option.map_eq_some_iff.mp taken
      subst same
      cases event with
      | keyCheck now => exact ⟨locks_pass source.regs source.reportKeyboardOut, rfl⟩
      | _ => cases pass
  | keyOutWrite packet behind => cases pass
  | link event => cases pass

/-- Up to the switch the pins show what the host wrote last. -/
def Scanned (s : LampState) : Prop :=
  s.hid.place = .scan → Locks s.regs s.reportKeyboardOut

theorem scanned_step {source target : LampState} {event : LampEvent} (wired : Wired source.link.led)
    (scanned : Scanned source) (taken : lampStep source event = some target) : Scanned target := by
  intro place
  cases pass : event.isPass with
  | true =>
      obtain ⟨locks, same⟩ := pass_step taken pass
      rw [same]
      exact locks
  | false =>
      have kept := quiet_step wired taken pass
      cases event with
      | hid event =>
          obtain ⟨hid, moved, same⟩ := Option.map_eq_some_iff.mp taken
          subst same
          exact (scanned (place_scan moved pass place)).congr kept
      | keyOutWrite packet behind =>
          obtain ⟨outside, same⟩ := Option.ite_none_right_eq_some.mp taken
          cases same
          rw [keyOutWrite, outside] at place
          cases place
      | link event =>
          obtain ⟨link, _, same⟩ := Option.map_eq_some_iff.mp taken
          subst same
          exact (scanned place).congr kept

/-! ## Power-on -/

def lampPins : List GpioPin :=
  linkLedPin :: lockPins

/-- A line after the boot is where its last call drove it, or as `gpio_init` left it. -/
theorem levels_boot (regs : Nat → UInt8) (line : Line) : levels (bootRegisters regs) line =
    (lastHigh bootCalls line).getD (levels (gpioInit regs) line) :=
  levels_execAll (gpioInit regs) bootCalls line

/-- The pins are ready after the boot, whatever the registers held before. -/
theorem boot_ready (regs : Nat → UInt8) : PinsReady (bootRegisters regs) lampPins := by
  constructor <;>
    simp only [lampPins, lockPins, List.forall_mem_cons, levels_boot, bootCalls, outputCalls_eq,
      inputCalls_eq, onOffCalls_init, uartGpioCfgPC6PC7_eq, List.cons_append, List.nil_append,
      lastHigh_cons, lastHigh_nil, covers_drive, drive_high]
  · exact ⟨⟨rfl, rfl, rfl⟩, ⟨rfl, rfl, rfl⟩, ⟨rfl, rfl, rfl⟩, ⟨rfl, rfl, rfl⟩, nofun⟩
  · exact ⟨rfl, rfl, rfl⟩
  · exact ⟨⟨rfl, rfl, rfl⟩, ⟨rfl, rfl, rfl⟩, nofun⟩

/-- Until the first pass the three lock LEDs are lit, and the link LED is dark. -/
theorem boot_locks (regs : Nat → UInt8) :
    (∀ pin ∈ lockPins, levels (bootRegisters regs) pin.outputLine = false) ∧
      levels (bootRegisters regs) linkLedPin.outputLine = true := by
  have low := fun pin => levels_gpioInit regs pin
  simp only [lockPins, List.forall_mem_cons, levels_boot, bootCalls, outputCalls_eq, inputCalls_eq,
    onOffCalls_init, uartGpioCfgPC6PC7_eq, List.cons_append, List.nil_append, lastHigh_cons,
    lastHigh_nil, covers_drive, drive_high]
  exact ⟨⟨low numlockLedPin, low caplockLedPin, low scrlockLedPin, nofun⟩, rfl⟩

/-! ## Runs -/

/-- The call of the link LED along an edge. -/
def linkEdge (edge : LampTransition) : Option LedTransition :=
  match edge.event with
  | .link event => some ⟨edge.source.link, event, edge.target.link⟩
  | _ => none

def linkEdges (edges : List LampTransition) : List LedTransition :=
  edges.filterMap linkEdge

/-- The link pin follows its driver, and lines of no pin of the device stay as they are. -/
structure Apart (boot : Nat → UInt8) (s : LampState) : Prop where
  link : levels s.regs linkLedPin.outputLine = s.link.led.output bleLedPin
  others : ∀ line ∉ lampPins.map GpioPin.outputLine, levels s.regs line = levels boot line

theorem Apart.step {boot : Nat → UInt8} {source target : LampState} {event : LampEvent}
    (apart : Apart boot source) (wired : Wired source.link.led)
    (taken : lampStep source event = some target) : Apart boot target := by
  obtain ⟨link, others⟩ := apart
  cases event with
  | hid event =>
      obtain ⟨hid, _, same⟩ := Option.map_eq_some_iff.mp taken
      subst same
      cases event with
      | keyCheck now =>
          have locks : ∀ line ∉ lockPins.map GpioPin.outputLine,
              levels (execAll source.regs (lockLedCalls source.reportKeyboardOut)) line =
                levels source.regs line :=
            (threeLedCalls_only numlockLedPin caplockLedPin scrlockLedPin
              source.reportKeyboardOut).levels_eq source.regs
          refine ⟨(locks _ (by decide)).trans link, fun line absent => ?_⟩
          exact (locks line fun member => absent (List.mem_cons_of_mem _ member)).trans
            (others line absent)
      | _ => exact ⟨link, others⟩
  | keyOutWrite packet behind =>
      obtain ⟨_, same⟩ := Option.ite_none_right_eq_some.mp taken
      cases same
      exact ⟨link, others⟩
  | link event =>
      obtain ⟨reached, moved, same⟩ := Option.map_eq_some_iff.mp taken
      subst same
      refine ⟨link_step wired moved link, fun line absent => ?_⟩
      have other : line ∉ [linkLedPin.outputLine] :=
        fun named => absent (List.mem_singleton.mp named ▸ by decide)
      exact ((link_only wired event).levels_eq source.regs line other).trans (others line absent)

section Runs

variable {gpioRead : UInt32} {regs analog : Nat → UInt8} {edges : List LampTransition}
  {start final : LampState}

theorem lamp_refines_link (run : Run lampStep start edges final) :
    Run ledStep start.link (linkEdges edges) final.link := by
  refine run.simulated LampState.link linkEdge fun {source event target} taken => ?_
  cases event with
  | hid event =>
      obtain ⟨hid, _, same⟩ := Option.map_eq_some_iff.mp taken
      subst same
      exact .refl
  | keyOutWrite packet behind =>
      obtain ⟨_, same⟩ := Option.ite_none_right_eq_some.mp taken
      cases same
      exact .refl
  | link event =>
      obtain ⟨link, moved, same⟩ := Option.map_eq_some_iff.mp taken
      subst same
      exact Run.refl.tail moved

theorem report_run (run : LampRun gpioRead regs analog edges final) :
    final.reportKeyboardOut = hostReport edges := by
  induction run with
  | refl => rfl
  | @tail edges source target event run taken ih =>
      rw [hostReport, filterMap_last]
      cases event with
      | hid event =>
          obtain ⟨hid, _, same⟩ := Option.map_eq_some_iff.mp taken
          subst same
          rw [Option.toList_none, List.append_nil]
          exact ih
      | keyOutWrite packet behind =>
          obtain ⟨_, same⟩ := Option.ite_none_right_eq_some.mp taken
          cases same
          rw [Option.toList_some, List.getLast?_concat]
          rfl
      | link event =>
          obtain ⟨link, _, same⟩ := Option.map_eq_some_iff.mp taken
          subst same
          rw [Option.toList_none, List.append_nil]
          exact ih

/-- Without the end of a pass the three pins stay as they are. -/
theorem quiet_run (wired : Wired start.link.led) (run : Run lampStep start edges final)
    (quiet : ∀ edge ∈ edges, edge.event.isPass = false) :
    ∀ pin ∈ lockPins, levels final.regs pin.outputLine = levels start.regs pin.outputLine := by
  intro pin member
  induction run with
  | refl => rfl
  | tail run taken ih =>
      have before := ih fun edge earlier => quiet edge (List.mem_append_left _ earlier)
      have there := wired_run wired (lamp_refines_link run)
      have last := quiet_step there taken (quiet _ List.mem_concat_self)
      exact (last pin member).trans before

theorem scanned_run (run : LampRun gpioRead regs analog edges final) : Scanned final := by
  induction run with
  | refl => exact fun place => by cases place
  | tail run taken ih =>
      exact scanned_step (wired_run wired_init (lamp_refines_link run)) ih taken

theorem apart_run (run : LampRun gpioRead regs analog edges final) :
    Apart (bootRegisters regs) final := by
  induction run with
  | refl =>
      refine ⟨?_, fun _ _ => rfl⟩
      rw [lampInit, (boot_locks regs).2]
      rfl
  | tail run taken ih => exact ih.step (wired_run wired_init (lamp_refines_link run)) taken

/-- No step writes an analog register. -/
theorem analog_run (run : LampRun gpioRead regs analog edges final) :
    final.analog = bootAnalog analog := by
  refine @Run.invariant _ _ _ _ _ _ (fun s => s.analog = bootAnalog analog) rfl
    (fun {source event target} kept taken => ?_) run
  cases event with
  | hid event =>
      obtain ⟨hid, _, same⟩ := Option.map_eq_some_iff.mp taken
      subst same
      exact kept
  | keyOutWrite packet behind =>
      obtain ⟨_, same⟩ := Option.ite_none_right_eq_some.mp taken
      cases same
      exact kept
  | link event =>
      obtain ⟨link, _, same⟩ := Option.map_eq_some_iff.mp taken
      subst same
      exact kept

/-- What is seen on the pins after `edges`. -/
structure LampsShow (regs : Nat → UInt8) (edges : List LampTransition) (s : LampState) : Prop where
  /-- the report that the last pass found -/
  settled : ∀ {before after : List LampTransition} {pass : LampTransition},
    edges = before ++ pass :: after → pass.event.isPass = true →
    (∀ edge ∈ after, edge.event.isPass = false) → Locks s.regs (hostReport before)
  /-- right after a pass that is the last report of all -/
  scanned : s.hid.place = .scan → Locks s.regs (hostReport edges)
  fresh : (∀ edge ∈ edges, edge.event.isPass = false) →
    ∀ pin ∈ lockPins, levels s.regs pin.outputLine = false
  link : (∀ edge ∈ linkEdges edges, Polled edge) →
    (levels s.regs linkLedPin.outputLine = false ↔ (shown (linkEdges edges)).LitAt s.link.now)
  ready : PinsReady s.regs lampPins
  resistors : ∀ pin : GpioPin, pin.Bonded → pin.pull s.analog = bootResistor pin
  others : ∀ line ∉ lampPins.map GpioPin.outputLine,
    levels s.regs line = levels (bootRegisters regs) line

/--
In every interleaving of the device, the reports of the host and the link LED
the lock LEDs show the report that the last pass found; before the first pass
they are all lit.  The pins stay as the boot has set them up, and no write to one
disturbs another.
-/
theorem lamps_show (run : LampRun gpioRead regs analog edges final) : LampsShow regs edges final := by
  have kept := apart_run run
  have linkRun := lamp_refines_link run
  have wired := wired_run wired_init linkRun
  refine ⟨?_, ?_, ?_, ?_, (boot_ready regs).congr kept.others, ?_, kept.others⟩
  · intro before after pass shape isPass quiet
    subst shape
    obtain ⟨first, crossed, rest⟩ := run.split
    obtain ⟨locks, _⟩ := pass_step crossed isPass
    have wiredThere := wired_run wired_init (lamp_refines_link (first.tail crossed))
    rw [report_run first] at locks
    exact locks.congr (quiet_run wiredThere rest quiet)
  · intro place
    rw [← report_run run]
    exact scanned_run run place
  · intro quiet pin member
    exact (quiet_run wired_init run quiet pin member).trans ((boot_locks regs).1 pin member)
  · intro polled
    rw [kept.link]
    exact Shows.lit_iff wired (shows_run linkRun polled)
  · intro pin bonded
    rw [analog_run run]
    exact pull_bootAnalog analog bonded

end Runs

/-- The host turns num lock and scroll lock on, a pass follows, and an empty report. -/
def locksOn : List LampEvent :=
  [.link (.startAdvertis 100), .keyOutWrite ⟨4, [5], rfl⟩ 0, .hid .process] ++
    List.replicate 3 (.hid (.statement 1000)) ++
    [.hid (.keyCheck 1000), .hid (.scan 0x20 1000), .keyOutWrite .empty 0x42]

theorem lamps_show_locksOn :
    ∃ edges final, edges.map Edge.event = locksOn ∧
      LampRun 0x20 (fun _ => 0xA5) (fun _ => 0x5A) edges final ∧
      LampsShow (fun _ => 0xA5) edges final := by
  obtain ⟨final, events, run⟩ := @enabled_run _ _ lampStep
    (lampInit 0x20 (fun _ => 0xA5) fun _ => 0x5A) locksOn (by decide +kernel)
  exact ⟨_, final, events, run, lamps_show run⟩

end Ser2Ble.Ser2Hid
