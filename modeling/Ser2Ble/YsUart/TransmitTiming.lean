import Mathlib.Tactic.Ring
import Ser2Ble.YsUart.TransmitQueue

/-!
# The transmit timeout

`ys_uart_init` sets the timeout once, to twice the idle time of the boot rate;
`ys_uart_set_baud` changes the rate and leaves the timeout alone.  The timeout is
armed before `STARTTX` starts the packet, and interrupts may come between the two.
Moments are strictly increasing throughout.
-/

namespace Ser2Ble.YsUart

open Library Proj App

/-- The reading with which `uart_set_tx_busy_flag` arms the timeout. -/
def armReading (edge : Transition) : Option Nat :=
  match edge.event, edge.source.pc with
  | .statement now, .armDelay _ => some now
  | _, _ => none

/-- The tick at which `STARTTX` starts a packet, and the length that the DMA finds in it. -/
def startReading (edge : Transition) : Option (Nat × Nat) :=
  match edge.event, edge.source.pc with
  | .statement now, .startTx _ =>
      some (now, loadU32 edge.target.tx.cells edge.target.tx.uart.regDma1Addr)
  | _, _ => none

/-- When an edge is taken: at the reading it takes of the clock, or at `STARTTX`. -/
def moment (edge : Transition) : Option Nat :=
  match edge.event, edge.source.pc with
  | .statement now, .startTx _ => some now
  | _, _ => clockReading edge

/-- The clock has moved on from each of these moments to the next. -/
def Ordered (edges : List Transition) : Prop :=
  (edges.filterMap moment).Pairwise (· < ·)

/-- The reading that armed the timeout last. -/
def lastArmed (edges : List Transition) : Option Nat :=
  (edges.filterMap armReading).getLast?

/-- The packet that a run started last. -/
def lastStart (edges : List Transition) : Option (Nat × Nat) :=
  (edges.filterMap startReading).getLast?

/-- `uart_tx_is_busy` takes the busy flag down by its timeout, reading the clock at `now`. -/
structure ClearsByTimeout (edge : Transition) (now : Nat) : Prop where
  event : edge.event = .statement now
  pc : ∃ fp, edge.source.pc = .txIsBusy fp
  flag : edge.source.tx.uart.uartTxBusyFlag = true
  timeout : uartTxTimeout edge.source.tx.uart now = true

/-! ## Registers and the timeout value -/

theorem uartInit_clk16m (uart : Uart) (rate : UartBaudTypeDef) :
    (uartInit uart rate.clk16m.1 rate.clk16m.2).1.bitTicks = rate.bitTicks := by
  cases rate <;> rfl

theorem uartInit_frame (uart : Uart) (div : UInt16) (bwpc : UInt8) :
    (uartInit uart div bwpc).1.uartTxDoneDelayUs = uart.uartTxDoneDelayUs ∧
      (uartInit uart div bwpc).1.uartContinueDelayTime = uart.uartContinueDelayTime := by
  unfold uartInit
  split <;> exact ⟨rfl, rfl⟩

theorem ysUartSetBaud_timeout (s : State) (baud : UInt8) :
    (ysUartSetBaud s baud).tx.uart.uartTxDoneDelayUs = s.tx.uart.uartTxDoneDelayUs ∧
      (ysUartSetBaud s baud).tx.uart.uartContinueDelayTime = s.tx.uart.uartContinueDelayTime := by
  unfold ysUartSetBaud
  split
  · exact uartInit_frame _ _ _
  · exact ⟨rfl, rfl⟩

theorem ysUartSetBaud_code (s : State) (rate : UartBaudTypeDef) :
    ysUartSetBaud s rate.code = { s with
      rx := { s.rx with uartRxIdle := rate.rxIdle }
      tx := { s.tx with uart := (uartInit s.tx.uart rate.clk16m.1 rate.clk16m.2).1 } } := by
  rw [ysUartSetBaud, UartBaudTypeDef.ofCode?_code]

theorem ysUartSetBaud_bitTicks (s : State) (baud : UInt8) :
    (ysUartSetBaud s baud).tx.uart.bitTicks = s.tx.uart.bitTicks ∨
      ∃ rate : UartBaudTypeDef, (ysUartSetBaud s baud).tx.uart.bitTicks = rate.bitTicks := by
  unfold ysUartSetBaud
  split
  · next rate _ => exact Or.inr ⟨rate, uartInit_clk16m _ rate⟩
  · exact Or.inl rfl

/-- The rate is changed by `ys_uart_set_baud` only, and the timeout value by nothing. -/
theorem step_uart {source target : State} {event : Event}
    (taken : step source event = some target) :
    target.tx.uart.uartTxDoneDelayUs = source.tx.uart.uartTxDoneDelayUs ∧
      (target.tx.uart.bitTicks = source.tx.uart.bitTicks ∨
        ∃ rate : UartBaudTypeDef, target.tx.uart.bitTicks = rate.bitTicks) := by
  constructor
  · have tested (now : Nat) := (uartTxIsBusy_frame source.tx.uart now).1
    cases step_cases taken with
    | irq byte txDone now => cases txDone <;> rfl
    | txBusy now | txFree now | kmaBusy now | kmaFree now => exact tested now
    | send data len => exact congrArg _ (ysUartSend_frame source.tx data len).1
    | attWrite packet =>
        exact congrArg _ (ysUartSend_frame source.tx packet.value
          (UInt8.ofNat (packet.l2capLen.toNat - 3))).1
    | setBaud baud pc => exact (ysUartSetBaud_timeout source baud).1
    | _ => rfl
  · rcases step_rate taken with same | ⟨baud, _, rfl⟩
    · left
      rw [Uart.bitTicks, same.divider, same.bwpc, Uart.bitTicks]
    · exact ysUartSetBaud_bitTicks source baud

/-- The timeout is that of the boot rate, whatever rate is in force. -/
theorem timeout_of_boot {boot : UartBaudTypeDef} {edges : List Transition} {final : State}
    (run : UartRun boot.code edges final) :
    final.tx.uart.uartTxDoneDelayUs = boot.rxIdle <<< 1 ∧
      ∃ rate : UartBaudTypeDef, final.tx.uart.bitTicks = rate.bitTicks := by
  refine @Run.invariant _ _ _ _ _ _ (fun s => s.tx.uart.uartTxDoneDelayUs = boot.rxIdle <<< 1 ∧
    ∃ rate : UartBaudTypeDef, s.tx.uart.bitTicks = rate.bitTicks) ?_ ?_ run
  · rw [ysUartInit, ysUartSetBaud_code]
    exact ⟨rfl, boot, uartInit_clk16m _ boot⟩
  · rintro source event target ⟨delay, rate, bits⟩ taken
    obtain ⟨same, kept | ⟨other, changed⟩⟩ := step_uart taken
    · exact ⟨same.trans delay, rate, kept.trans bits⟩
    · exact ⟨same.trans delay, other, changed⟩

theorem doneDelay_ticks (boot : UartBaudTypeDef) :
    (boot.rxIdle <<< 1).toNat * 16 = 32 * boot.rxIdle.toNat ∧
      (boot.rxIdle <<< 1).toNat * 16 < 2 ^ 32 := by
  cases boot <;> decide

/-! ## Moments -/

theorem moment_other {edge : Transition} (elsewhere : ∀ fp, edge.source.pc ≠ .startTx fp) :
    moment edge = clockReading edge := by
  unfold moment
  split
  · next now fp _ pc => exact absurd pc (elsewhere fp)
  · rfl

theorem moment_armDelay {s target : State} {now fp : Nat} (pc : s.pc = .armDelay fp) :
    moment ⟨s, .statement now, target⟩ = some now := by
  rw [moment_other (by rw [pc]; simp)]
  exact clockReading_armDelay pc

theorem moment_startTx {s target : State} {now fp : Nat} (pc : s.pc = .startTx fp) :
    moment ⟨s, .statement now, target⟩ = some now := by
  unfold moment
  dsimp only
  rw [pc]

theorem Ordered.of_append {before after : List Transition} (ordered : Ordered (before ++ after)) :
    Ordered before := by
  rw [Ordered, List.filterMap_append, List.pairwise_append] at ordered
  exact ordered.1

theorem Ordered.lt {before after : List Transition} {edge : Transition} {earlier now : Nat}
    (ordered : Ordered (before ++ edge :: after)) (member : earlier ∈ before.filterMap moment)
    (taken : moment edge = some now) : earlier < now := by
  rw [Ordered, List.filterMap_append, List.filterMap_cons_some taken,
    List.pairwise_append] at ordered
  exact ordered.2.2 earlier member now List.mem_cons_self

theorem armReading_armDelay {s target : State} {now fp : Nat} (pc : s.pc = .armDelay fp) :
    armReading ⟨s, .statement now, target⟩ = some now := by
  unfold armReading
  dsimp only
  rw [pc]

theorem armReading_none {edge : Transition} (elsewhere : ∀ fp, edge.source.pc ≠ .armDelay fp) :
    armReading edge = none := by
  unfold armReading
  split
  · next now fp _ pc => exact absurd pc (elsewhere fp)
  · rfl

theorem startReading_startTx {s target : State} {now fp : Nat} (pc : s.pc = .startTx fp) :
    startReading ⟨s, .statement now, target⟩ =
      some (now, loadU32 target.tx.cells target.tx.uart.regDma1Addr) := by
  unfold startReading
  dsimp only
  rw [pc]

theorem startReading_none {edge : Transition} (elsewhere : ∀ fp, edge.source.pc ≠ .startTx fp) :
    startReading edge = none := by
  unfold startReading
  split
  · next now fp _ pc => exact absurd pc (elsewhere fp)
  · rfl

theorem lastArmed_other {edges : List Transition} {edge : Transition}
    (other : armReading edge = none) : lastArmed (edges ++ [edge]) = lastArmed edges := by
  rw [lastArmed, filterMap_last, other, Option.toList_none, List.append_nil, lastArmed]

theorem lastStart_other {edges : List Transition} {edge : Transition}
    (other : startReading edge = none) : lastStart (edges ++ [edge]) = lastStart edges := by
  rw [lastStart, filterMap_last, other, Option.toList_none, List.append_nil, lastStart]

theorem moment_mem_append {edges : List Transition} {now : Nat}
    (member : now ∈ edges.filterMap moment) (edge : Transition) :
    now ∈ (edges ++ [edge]).filterMap moment := by
  rw [List.filterMap_append]
  exact List.mem_append_left _ member

/-! ## The armed timeout -/

/-- The timeout is stamped with the reading that armed it last. -/
structure ArmedAt (edges : List Transition) (s : State) (armed : Nat) : Prop where
  last : lastArmed edges = some armed
  stamp : s.tx.uart.uartContinueDelayTime = Clock.stamp armed
  member : armed ∈ edges.filterMap moment

/-- A packet was started last, after the timeout was armed at `armed`. -/
structure StartedAt (edges : List Transition) (armed start length : Nat) : Prop where
  last : lastStart edges = some (start, length)
  short : length ≤ 20
  later : armed < start
  member : start ∈ edges.filterMap moment

/-- With the flag up the timeout runs from its arming on, and the packet was started after it. -/
def Armed (edges : List Transition) (s : State) : Prop :=
  s.tx.uart.uartTxBusyFlag = true → (∀ fp, s.pc ≠ .armDelay fp) →
    ∃ armed, ArmedAt edges s armed ∧
      ((∀ fp, s.pc ≠ .startTx fp) → ∃ start length, StartedAt edges armed start length)

/-- An edge that neither arms nor starts, and leaves the flag and the stamp alone. -/
theorem Armed.keep {edges : List Transition} {edge : Transition} (armed : Armed edges edge.source)
    (unarmed : armReading edge = none) (unstarted : startReading edge = none)
    (arming : (∀ fp, edge.target.pc ≠ .armDelay fp) → ∀ fp, edge.source.pc ≠ .armDelay fp)
    (starting : (∀ fp, edge.target.pc ≠ .startTx fp) → ∀ fp, edge.source.pc ≠ .startTx fp)
    (flag : edge.target.tx.uart.uartTxBusyFlag = edge.source.tx.uart.uartTxBusyFlag)
    (delay : edge.target.tx.uart.uartContinueDelayTime =
      edge.source.tx.uart.uartContinueDelayTime) :
    Armed (edges ++ [edge]) edge.target := by
  intro up elsewhere
  rw [flag] at up
  obtain ⟨reading, ⟨last, stamp, member⟩, begun⟩ := armed up (arming elsewhere)
  refine ⟨reading, ⟨?_, delay.trans stamp, moment_mem_append member edge⟩, fun past => ?_⟩
  · rw [lastArmed_other unarmed]
    exact last
  · obtain ⟨start, length, latest, short, later, inside⟩ := begun (starting past)
    refine ⟨start, length, ?_, short, later, moment_mem_append inside edge⟩
    rw [lastStart_other unstarted]
    exact latest

/-- An edge from elsewhere in the main loop. -/
theorem Armed.apart {edges : List Transition} {edge : Transition} (armed : Armed edges edge.source)
    (arming : ∀ fp, edge.source.pc ≠ .armDelay fp) (starting : ∀ fp, edge.source.pc ≠ .startTx fp)
    (flag : edge.target.tx.uart.uartTxBusyFlag = edge.source.tx.uart.uartTxBusyFlag)
    (delay : edge.target.tx.uart.uartContinueDelayTime =
      edge.source.tx.uart.uartContinueDelayTime) :
    Armed (edges ++ [edge]) edge.target :=
  armed.keep (armReading_none arming) (startReading_none starting) (fun _ => arming)
    (fun _ => starting) flag delay

theorem Armed.lowered {edges : List Transition} {s : State}
    (down : s.tx.uart.uartTxBusyFlag = false) : Armed edges s := by
  intro up
  rw [down] at up
  cases up

theorem armed_step {edges : List Transition} {source target : State} {event : Event}
    (live : TxLive source) (armed : Armed edges source)
    (ordered : Ordered (edges ++ [⟨source, event, target⟩]))
    (taken : step source event = some target) :
    Armed (edges ++ [⟨source, event, target⟩]) target := by
  cases step_cases taken with
  | irq byte txDone now =>
      cases txDone with
      | true => exact Armed.lowered rfl
      | false =>
          exact @Armed.keep edges ⟨source, .irq byte false now,
            ysUartIrqHandler source byte false now⟩ armed rfl rfl id id rfl rfl
  | raiseBusyFlag now fp pc => exact fun _ elsewhere => absurd rfl (elsewhere fp)
  | armDelay now fp pc =>
      intro up elsewhere
      refine ⟨now, ⟨?_, rfl, ?_⟩, fun past => absurd rfl (past fp)⟩
      · rw [lastArmed, filterMap_last, armReading_armDelay pc, Option.toList_some,
          List.getLast?_concat]
      · rw [filterMap_last, moment_armDelay pc]
        exact List.mem_concat_self
  | startTx now fp pc =>
      intro up elsewhere
      have place := live.place
      rw [Place, pc] at place
      have short := live.sound.lengths 0 place.1
      rw [← place.2] at short
      obtain ⟨reading, ⟨last, stamp, member⟩, _⟩ := armed up (by rw [pc]; simp)
      refine ⟨reading, ⟨?_, stamp, moment_mem_append member _⟩, fun _ =>
        ⟨now, loadU32 source.tx.cells fp, ?_, short, ordered.lt member (moment_startTx pc), ?_⟩⟩
      · rw [lastArmed_other (armReading_none (by rw [pc]; simp))]
        exact last
      · rw [lastStart, filterMap_last, startReading_startTx pc, Option.toList_some,
          List.getLast?_concat]
        rfl
      · rw [filterMap_last, moment_startTx pc]
        exact List.mem_concat_self
  | txFree now fp pc free => exact Armed.lowered (uartTxIsBusy_free free)
  | kmaFree now fp pc free => exact Armed.lowered (uartTxIsBusy_free free)
  | txBusy now fp pc busy | kmaBusy now fp pc busy =>
      have same := uartTxIsBusy_busy busy
      refine armed.apart (by rw [pc]; simp) (by rw [pc]; simp) ?_ ?_
      · change (uartTxIsBusy source.tx.uart now).2.uartTxBusyFlag = _
        rw [same]
      · change (uartTxIsBusy source.tx.uart now).2.uartContinueDelayTime = _
        rw [same]
  | send data len maySend enough =>
      have same := (ysUartSend_frame source.tx data len).1
      have away : ∀ {pc : Pc}, pc.maySend = false → source.pc ≠ pc := by
        rintro pc never rfl
        rw [maySend] at never
        cases never
      exact armed.apart (fun fp => away rfl) (fun fp => away rfl) (congrArg _ same)
        (congrArg _ same)
  | attWrite packet pc =>
      have same := (ysUartSend_frame source.tx packet.value
        (UInt8.ofNat (packet.l2capLen.toNat - 3))).1
      exact armed.apart (by rw [pc]; simp) (by rw [pc]; simp) (congrArg _ same) (congrArg _ same)
  | setBaud baud pc =>
      exact armed.apart (by rw [pc]; simp) (by rw [pc]; simp) (ysUartSetBaud_tx source baud).2.1
        (ysUartSetBaud_timeout source baud).2
  | process pc | handlerDone _ _ pc | handlerRefused _ _ _ pc | idleFlush _ pc | rxGet _ _ pc
  | rxEmpty _ pc | recvCall _ _ pc | rxPop _ pc | txGet _ _ pc | txEmpty _ pc | kmaTooLong _ _ pc
  | kmaLen _ _ pc | txPop _ _ pc =>
      exact armed.apart (by rw [pc]; simp) (by rw [pc]; simp) rfl rfl

theorem armed_run {baud : UInt8} {edges : List Transition} {final : State}
    (run : UartRun baud edges final) (ordered : Ordered edges) : Armed edges final := by
  induction run with
  | refl => exact Armed.lowered (init_tx baud).2
  | tail run taken ih => exact armed_step (txLive_run run) (ih ordered.of_append) ordered taken

/-- Where the busy flag is tested, what armed the timeout and what was started are known. -/
theorem armed_at_test {baud : UInt8} {before : List Transition} {s : State} {fp : Nat}
    (run : UartRun baud before s) (ordered : Ordered before) (pc : s.pc = .txIsBusy fp)
    (up : s.tx.uart.uartTxBusyFlag = true) :
    ∃ armed start length, ArmedAt before s armed ∧ StartedAt before armed start length := by
  obtain ⟨armed, stamped, begun⟩ := armed_run run ordered up (by rw [pc]; simp)
  obtain ⟨start, length, started⟩ := begun (by rw [pc]; simp)
  exact ⟨armed, start, length, stamped, started⟩

/-- What the timeout compares, at a test that reads the clock at `now`. -/
theorem uartTxTimeout_iff {boot : UartBaudTypeDef} {before : List Transition} {s : State}
    {armed now : Nat} (run : UartRun boot.code before s) (stamped : ArmedAt before s armed)
    (later : armed < now) : uartTxTimeout s.tx.uart now = true ↔
      32 * boot.rxIdle.toNat < (now - (armed ||| 1)) % 2 ^ 32 := by
  have delay : s.tx.uart.uartContinueDelayTime ≠ 0 := by
    rw [stamped.stamp]
    exact Clock.stamp_ne_zero armed
  rw [uartTxTimeout, decide_eq_true delay, Bool.true_and, (timeout_of_boot run).1, stamped.stamp,
    clockTimeExceed_iff (doneDelay_ticks boot).2, (doneDelay_ticks boot).1, clockTime,
    Clock.reading_sub_stamp later]

theorem ArmedAt.moment {before : List Transition} {edge : Transition} {armed now fp : Nat}
    (stamped : ArmedAt before edge.source armed) (event : edge.event = .statement now)
    (pc : edge.source.pc = .txIsBusy fp) : moment edge = some now := by
  rw [moment_other (by rw [pc]; simp), clockReading, event, pc]
  refine if_pos ?_
  rw [stamped.stamp]
  exact Clock.stamp_ne_zero armed

/-- The ticks that the timeout has still to run at the first tick after a start. -/
def timeLeft (boot : UartBaudTypeDef) (armed start : Nat) : Nat :=
  Clock.left (32 * boot.rxIdle.toNat) (armed ||| 1) (start + 1)

/-- A timeout comes after the last start, and not before it has run out. -/
theorem timeout_elapsed {boot : UartBaudTypeDef} {before : List Transition} {edge : Transition}
    {final : State} {now : Nat} (run : UartRun boot.code (before ++ [edge]) final)
    (ordered : Ordered (before ++ [edge])) (clears : ClearsByTimeout edge now) :
    ∃ armed start length, lastArmed before = some armed ∧ lastStart before = some (start, length) ∧
      armed < start ∧ length ≤ 20 ∧ start + 1 + timeLeft boot armed start ≤ now := by
  obtain ⟨earlier, _, _⟩ := run.split
  obtain ⟨fp, pc⟩ := clears.pc
  obtain ⟨armed, start, length, stamped, started⟩ :=
    armed_at_test earlier ordered.of_append pc clears.flag
  have reading := stamped.moment clears.event pc
  have afterStart := ordered.lt started.member reading
  have exceeded := (uartTxTimeout_iff earlier stamped (ordered.lt stamped.member reading)).mp
    clears.timeout
  have reference := (Clock.or_one_le armed).2
  have later := started.later
  exact ⟨armed, start, length, stamped.last, started.last, later, started.short,
    Clock.left_le (by omega) afterStart exceeded⟩

/-! ## A run in which the timeout comes as early as it can -/

/-- Some run leads from `s` to `t` with these moments, armings and starts. -/
def Executes (s t : State) (moments armings : List Nat) (starts : List (Nat × Nat)) : Prop :=
  ∃ edges, Run step s edges t ∧ edges.filterMap moment = moments ∧
    edges.filterMap armReading = armings ∧ edges.filterMap startReading = starts

section Executes

variable {s t target : State} {moments armings : List Nat} {starts : List (Nat × Nat)}
  {event : Event}

theorem Executes.refl (s : State) : Executes s s [] [] [] :=
  ⟨[], .refl, rfl, rfl, rfl⟩

theorem Executes.tail (executes : Executes s t moments armings starts)
    (taken : step t event = some target) :
    Executes s target (moments ++ (moment ⟨t, event, target⟩).toList)
      (armings ++ (armReading ⟨t, event, target⟩).toList)
      (starts ++ (startReading ⟨t, event, target⟩).toList) := by
  obtain ⟨edges, run, read, armed, started⟩ := executes
  refine ⟨_, run.tail taken, ?_, ?_, ?_⟩
  · rw [filterMap_last, read]
  · rw [filterMap_last, armed]
  · rw [filterMap_last, started]

theorem Executes.quiet (executes : Executes s t moments armings starts)
    (taken : step t event = some target) (unread : moment ⟨t, event, target⟩ = none)
    (unarmed : armReading ⟨t, event, target⟩ = none)
    (unstarted : startReading ⟨t, event, target⟩ = none) :
    Executes s target moments armings starts := by
  have longer := executes.tail taken
  rwa [unread, unarmed, unstarted, Option.toList_none, Option.toList_none, List.append_nil,
    List.append_nil, List.append_nil] at longer

/-- With nothing received, a pass of the main loop reaches the busy test of the oldest packet. -/
theorem Executes.busyTest (executes : Executes s t moments armings starts) (pc : t.pc = .outside)
    (untimed : t.rx.uartRxTick = 0) (empty : t.rx.backlog = 0) (waiting : 0 < t.tx.backlog) :
    Executes s { t with pc := .txIsBusy (t.tx.waitingSlot 0) } moments armings starts := by
  have flush : t.rx.idleFlush 0 = t.rx := by
    rw [Rx.idleFlush, Rx.idleExpired, untimed]
    rfl
  have received : myFifoGet t.rx.uartRxFifo = none := (MyFifo.get_eq_none_iff _).mpr empty
  have oldest : myFifoGet t.tx.uartTxFifo = some (t.tx.waitingSlot 0) :=
    (MyFifo.get_eq_some_iff _ _).mpr ⟨waiting, t.tx.waitingSlot_zero⟩
  have called : step t .process = some { t with pc := .idleFlush } := if_pos pc
  have flushed : step { t with pc := .idleFlush } (.statement 0) = some { t with pc := .rxGet } := by
    change some { t with rx := t.rx.idleFlush 0, pc := .rxGet } = _
    rw [flush]
  have unread : step { t with pc := .rxGet } (.statement 0) = some { t with pc := .txGet } := by
    simp only [step, statement, received]
  have taken : step { t with pc := .txGet } (.statement 0) =
      some { t with pc := .txIsBusy (t.tx.waitingSlot 0) } := by
    simp only [step, statement, oldest]
  have atFlush := (executes.quiet called rfl rfl rfl).quiet flushed
    (if_neg (not_not_intro untimed)) rfl rfl
  exact (atFlush.quiet unread rfl rfl rfl).quiet taken rfl rfl rfl

/--
From the busy test on, with the flag down, the pass arms the timeout, starts the
oldest packet and pops it.
-/
theorem Executes.start {fp : Nat} (executes : Executes s t moments armings starts)
    (pc : t.pc = .txIsBusy fp) (down : t.tx.uart.uartTxBusyFlag = false)
    (disarmed : t.tx.uart.uartContinueDelayTime = 0) (fits : ¬ 252 < loadU32 t.tx.cells fp)
    (arming now : Nat) :
    Executes s
      { t with
        tx := ⟨myFifoPop t.tx.uartTxFifo,
          startTx (uartArmContinueDelay (uartRaiseTxBusyFlag t.tx.uart) arming) fp⟩
        pc := .outside }
      (moments ++ [arming] ++ [now]) (armings ++ [arming])
      (starts ++ [(now, loadU32 t.tx.cells fp)]) := by
  obtain ⟨rx, ⟨fifo, uart⟩, place⟩ := t
  dsimp only at pc down disarmed
  subst pc
  have test : uartTxIsBusy uart 0 = (false, uart) := by
    rw [uartTxIsBusy, uartTxTimeout, disarmed, down]
    rfl
  have free : step ⟨rx, ⟨fifo, uart⟩, .txIsBusy fp⟩ (.statement 0) =
      some ⟨rx, ⟨fifo, uart⟩, .sendKmaLen fp⟩ := by
    simp only [step, statement, test]
    rfl
  have short : step ⟨rx, ⟨fifo, uart⟩, .sendKmaLen fp⟩ (.statement 0) =
      some ⟨rx, ⟨fifo, uart⟩, .sendKmaBusy fp⟩ := by
    simp only [step, statement]
    exact if_neg fits
  have still : step ⟨rx, ⟨fifo, uart⟩, .sendKmaBusy fp⟩ (.statement 0) =
      some ⟨rx, ⟨fifo, uart⟩, .raiseBusyFlag fp⟩ := by
    simp only [step, statement, test]
    rfl
  have popped : step ⟨rx, ⟨fifo, startTx (uartArmContinueDelay (uartRaiseTxBusyFlag uart) arming)
      fp⟩, .txPop 1⟩ (.statement 0) = some ⟨rx, ⟨myFifoPop fifo,
        startTx (uartArmContinueDelay (uartRaiseTxBusyFlag uart) arming) fp⟩, .outside⟩ := rfl
  have unread : ¬ uart.uartContinueDelayTime ≠ 0 := not_not_intro disarmed
  have atBusy := (executes.quiet free (if_neg unread) rfl rfl).quiet short rfl rfl rfl
  have atRaise := atBusy.quiet still (if_neg unread) rfl rfl
  have atArm := atRaise.quiet (step_raiseBusyFlag _ _ _ _ 0) rfl rfl rfl
  have armed : Executes s _ (moments ++ [arming]) (armings ++ [arming]) (starts ++ []) :=
    atArm.tail (step_armDelay _ _ _ _ arming)
  have started : Executes s _ (moments ++ [arming] ++ [now]) (armings ++ [arming] ++ [])
      (starts ++ [] ++ [(now, loadU32 fifo.p fp)]) := armed.tail (step_startTx _ _ _ _ now)
  rw [List.append_nil, List.append_nil] at started
  exact started.quiet popped rfl rfl rfl

/-- A `ys_uart_send` call from outside `ys_uart_process` that finds room. -/
theorem Executes.send (executes : Executes s t moments armings starts) (pc : t.pc = .outside)
    (room : t.tx.backlog < 8) {data : List UInt8} (short : data.length ≤ 20) :
    Executes s { t with tx := t.tx.accept data } moments armings starts := by
  have count : (UInt8.ofNat data.length).toNat = data.length := by
    rw [UInt8.toNat_ofNat']
    omega
  have whole : clamped data (UInt8.ofNat data.length) = data := by
    rw [clamped, count]
    exact List.take_of_length_le (by omega)
  have sent : step t (.send data (UInt8.ofNat data.length)) =
      some { t with tx := t.tx.accept data } := by
    have enabled : t.pc.maySend = true ∧ (UInt8.ofNat data.length).toNat ≤ data.length := by
      rw [pc, count]
      exact ⟨rfl, Nat.le_refl _⟩
    rw [step, if_pos enabled, ysUartSend_room room enabled.2, whole]
  exact executes.quiet sent rfl rfl rfl

end Executes

/-- The state after a boot at one rate and a change to another. -/
theorem booted (boot rate : UartBaudTypeDef) :
    ∃ t, Executes (ysUartInit powerOn boot.code) t [] [] [] ∧ t.pc = .outside ∧
      t.rx.uartRxTick = 0 ∧ t.rx.backlog = 0 ∧ t.tx.uartTxFifo = .init ∧
      t.tx.uart.uartTxBusyFlag = false ∧ t.tx.uart.uartContinueDelayTime = 0 ∧
      t.tx.uart.bitTicks = rate.bitTicks := by
  have start := init_tx boot.code
  have taken : step (ysUartInit powerOn boot.code) (.setBaud rate.code) =
      some (ysUartSetBaud (ysUartInit powerOn boot.code) rate.code) := if_pos (init_pc _)
  have disarmed : (ysUartInit powerOn boot.code).tx.uart.uartContinueDelayTime = 0 :=
    (ysUartSetBaud_timeout _ _).2
  obtain ⟨fifo, flag, _⟩ := ysUartSetBaud_tx (ysUartInit powerOn boot.code) rate.code
  have delay := (ysUartSetBaud_timeout (ysUartInit powerOn boot.code) rate.code).2
  refine ⟨_, (Executes.refl _).quiet taken rfl rfl rfl, (ysUartSetBaud_pc _ _).trans (init_pc _), ?_,
    ?_, fifo.trans start.1, flag.trans start.2, delay.trans disarmed, ?_⟩
  · rw [ysUartSetBaud_code, ysUartInit, ysUartSetBaud_code]
    rfl
  · rw [ysUartSetBaud_code, ysUartInit, ysUartSetBaud_code]
    exact Ring.backlog_self 0
  · rw [ysUartSetBaud_code]
    exact uartInit_clk16m _ rate

/-- The busy test of the next packet, as early as the timeout of the boot rate allows. -/
theorem Executes.clears {boot : UartBaudTypeDef} {t : State} {fp armed start length : Nat}
    (executes : Executes (ysUartInit powerOn boot.code) t [armed, start] [armed] [(start, length)])
    (later : armed < start) (pc : t.pc = .txIsBusy fp) (up : t.tx.uart.uartTxBusyFlag = true)
    (stamp : t.tx.uart.uartContinueDelayTime = Clock.stamp armed) :
    ∃ before edge final, UartRun boot.code (before ++ [edge]) final ∧
      Ordered (before ++ [edge]) ∧
      ClearsByTimeout edge (start + 1 + timeLeft boot armed start) ∧
      lastArmed before = some armed ∧ lastStart before = some (start, length) ∧
      edge.source = t := by
  obtain ⟨before, run, moments, armings, starts⟩ := executes
  have bound := boot.rxIdle_le
  have reference := (Clock.or_one_le armed).2
  obtain ⟨now, shown⟩ : ∃ now, now = start + 1 + timeLeft boot armed start := ⟨_, rfl⟩
  have stamped : ArmedAt before t armed :=
    ⟨by rw [lastArmed, armings]; rfl, stamp, by rw [moments]; exact List.mem_cons_self⟩
  have expired : uartTxTimeout t.tx.uart now = true := by
    rw [uartTxTimeout_iff run stamped (by omega), shown]
    exact Clock.left_exceeds (by omega) (by omega)
  have free : (uartTxIsBusy t.tx.uart now).1 = false := by
    rw [uartTxIsBusy, if_pos expired]
  obtain ⟨target, taken⟩ : ∃ target, step t (.statement now) = some target := by
    simp only [step, statement, pc, free]
    exact ⟨_, rfl⟩
  rw [← shown]
  refine ⟨before, ⟨t, .statement now, target⟩, target, run.tail taken, ?_,
    ⟨rfl, ⟨fp, pc⟩, up, expired⟩, stamped.last, ?_, rfl⟩
  · have reading : moment ⟨t, .statement now, target⟩ = some now :=
      @ArmedAt.moment before ⟨t, .statement now, target⟩ armed now fp stamped rfl pc
    rw [Ordered, filterMap_last, moments, reading, Option.toList_some]
    refine List.pairwise_cons.mpr ⟨fun other inside => ?_, List.pairwise_pair.mpr (by omega)⟩
    rcases List.mem_cons.mp inside with rfl | last
    · exact later
    · cases List.mem_singleton.mp last
      omega
  · rw [lastStart, starts]
    rfl

/--
For every boot rate, rate in force and length, and however long an interrupt
holds up the start, some run takes the flag down as soon as the timeout has run out.
-/
theorem early_timeout (boot rate : UartBaudTypeDef) {armed start length : Nat}
    (later : armed < start) (short : length ≤ 20) :
    ∃ before edge final, UartRun boot.code (before ++ [edge]) final ∧
      Ordered (before ++ [edge]) ∧
      ClearsByTimeout edge (start + 1 + timeLeft boot armed start) ∧
      lastArmed before = some armed ∧ lastStart before = some (start, length) ∧
      edge.source.tx.uart.bitTicks = rate.bitTicks := by
  obtain ⟨⟨rx, ⟨fifo, uart⟩, place⟩, configured, pc, tick, empty, init, down, disarmed, bits⟩ :=
    booted boot rate
  dsimp only at pc tick init down disarmed bits
  subst pc init
  -- a packet of the given length is started, and another one is queued behind it
  have data : (List.replicate length (0 : UInt8)).length ≤ 20 := by rwa [List.length_replicate]
  have stored : loadU32 (Tx.accept ⟨.init, uart⟩ (List.replicate length 0)).cells
      ((Tx.accept ⟨.init, uart⟩ (List.replicate length 0)).waitingSlot 0) = length := by
    have copied := loadU32_copy_frame (Tx.cells ⟨.init, uart⟩) (Tx.slot 0)
      (Nat.lt_of_le_of_lt data (by decide))
    rwa [List.length_replicate] at copied
  have first := (configured.send rfl (by change Ring.backlog 0 0 < 8; decide) data).busyTest rfl
    tick empty (by change 0 < Ring.backlog (0 + 1) 0; decide)
  have begun := first.start rfl down disarmed (by rw [stored]; omega) armed start
  have second := (begun.send rfl (by change Ring.backlog (0 + 1) (0 + 1) < 8; decide)
    (show ([] : List UInt8).length ≤ 20 by decide)).busyTest rfl tick empty
    (by change 0 < Ring.backlog (0 + 1 + 1) (0 + 1); decide)
  dsimp only at second
  rw [stored] at second
  obtain ⟨before, edge, final, run, ordered, clears, lastArm, last, source⟩ :=
    second.clears later rfl rfl rfl
  refine ⟨before, edge, final, run, ordered, clears, lastArm, last, ?_⟩
  rw [source]
  exact bits

/-! ## When the timeout is long enough -/

/--
The timeout never fires before the last packet is off the wire, for a boot rate,
a rate in force, a length and the two moments of arming and starting, exactly
when ten bit times for each byte are at most one tick more than the timeout has
left when it can first be tested; and every timeout is such a case.
-/
theorem timeout_after_wire_iff (boot rate : UartBaudTypeDef) {armed start length : Nat}
    (later : armed < start) (short : length ≤ 20) :
    ((∀ before edge final now, UartRun boot.code (before ++ [edge]) final →
        Ordered (before ++ [edge]) → ClearsByTimeout edge now →
        lastArmed before = some armed → lastStart before = some (start, length) →
        edge.source.tx.uart.bitTicks = rate.bitTicks →
        start + length * (10 * rate.bitTicks) ≤ now) ↔
      length * (10 * rate.bitTicks) ≤ 1 + timeLeft boot armed start) ∧
    ∀ before edge final now, UartRun boot.code (before ++ [edge]) final →
      Ordered (before ++ [edge]) → ClearsByTimeout edge now →
      ∃ armed start sent inForce, lastArmed before = some armed ∧
        lastStart before = some (start, sent) ∧ armed < start ∧ sent ≤ 20 ∧
        edge.source.tx.uart.bitTicks = UartBaudTypeDef.bitTicks inForce := by
  refine ⟨⟨fun safe => ?_, fun enough => ?_⟩, ?_⟩
  · obtain ⟨before, edge, final, run, ordered, clears, lastArm, last, bits⟩ :=
      early_timeout boot rate later short
    have elapsed := safe before edge final _ run ordered clears lastArm last bits
    omega
  · intro before edge final now run ordered clears lastArm last bits
    obtain ⟨reading, begun, sent, armedThen, startedThen, _, _, elapsed⟩ :=
      timeout_elapsed run ordered clears
    rw [lastArm] at armedThen
    rw [last] at startedThen
    cases armedThen
    cases startedThen
    omega
  · intro before edge final now run ordered clears
    obtain ⟨reading, begun, sent, lastArm, last, between, fits, _⟩ :=
      timeout_elapsed run ordered clears
    obtain ⟨inForce, bits⟩ := (timeout_of_boot run.split.1).2
    exact ⟨reading, begun, sent, inForce, lastArm, last, between, fits, bits⟩

/--
At 9600, armed at tick 17, a packet of 20 bytes is safe when it is started at the
next tick, and not when an interrupt holds the start up for 2000 ticks.
-/
theorem timeout_after_wire_iff_9600 :
    (∀ before edge final now, UartRun 0 (before ++ [edge]) final → Ordered (before ++ [edge]) →
        ClearsByTimeout edge now → lastArmed before = some 17 → lastStart before = some (18, 20) →
        edge.source.tx.uart.bitTicks = 1666 → 18 + 333200 ≤ now) ∧
    ¬ ∀ before edge final now, UartRun 0 (before ++ [edge]) final → Ordered (before ++ [edge]) →
        ClearsByTimeout edge now → lastArmed before = some 17 → lastStart before = some (2018, 20) →
        edge.source.tx.uart.bitTicks = 1666 → 2018 + 333200 ≤ now :=
  ⟨(timeout_after_wire_iff .uartBaud9600 .uartBaud9600 (by decide) (Nat.le_refl 20)).1.mpr
      (by decide),
    (timeout_after_wire_iff .uartBaud9600 .uartBaud9600 (by decide)
      (Nat.le_refl 20)).1.not.mpr (by decide)⟩

/--
Booted at 230400 and switched to 9600, a packet of 20 bytes is declared sent
after 13888 ticks; it needs 333200.
-/
theorem timeout_before_wire :
    ∃ before edge final start now,
      UartRun UartBaudTypeDef.uartBaud230400.code (before ++ [edge]) final ∧
      Ordered (before ++ [edge]) ∧ ClearsByTimeout edge now ∧
      lastStart before = some (start, 20) ∧
      edge.source.tx.uart.bitTicks = UartBaudTypeDef.uartBaud9600.bitTicks ∧
      now = start + 13888 ∧ 20 * (10 * UartBaudTypeDef.uartBaud9600.bitTicks) = 333200 := by
  obtain ⟨before, edge, final, run, ordered, clears, _, last, bits⟩ :=
    early_timeout .uartBaud230400 .uartBaud9600 (show 17 < 18 by decide) (Nat.le_refl 20)
  exact ⟨before, edge, final, 18, _, run, ordered, clears, last, bits, rfl, rfl⟩

end Ser2Ble.YsUart
