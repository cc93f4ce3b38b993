import Ser2Ble.YsUart.ReceiveProgress
import Ser2Ble.YsUart.TransmitTiming

/-!
# Progress of the transmit side

A pass of `ys_uart_process` starts one frame, finds none, or finds the
transmitter busy.  It is busy only for the timeout after the last start, so that
a lost end-of-transmission interrupt delays the queue and never stops it.
-/

namespace Ser2Ble.YsUart

open Library Proj

/-! ## A pass starts one frame, finds none, or finds the transmitter busy -/

/-- A pass that has still to look for a frame, or to start it. -/
def Pc.toStart : Pc → Nat
  | .outside => 0
  | .txPop _ => 0
  | _ => 1

/-- `my_fifo_get(&uart_tx_fifo)` finds no frame. -/
def findsNoFrame (edge : Transition) : Bool :=
  match edge.event, edge.source.pc with
  | .statement _, .txGet => (myFifoGet edge.source.tx.uartTxFifo).isNone
  | _, _ => false

/-- `uart_tx_is_busy` keeps the frame waiting. -/
def findsBusy (edge : Transition) : Bool :=
  match edge.event, edge.source.pc with
  | .statement now, .txIsBusy _ => (uartTxIsBusy edge.source.tx.uart now).1
  | _, _ => false

theorem start_step {source target : State} {event : Event} (live : TxLive source)
    (taken : step source event = some target) :
    event.isProcess.toNat + source.pc.toStart =
      ((startedFrame ⟨source, event, target⟩).isSome || findsNoFrame ⟨source, event, target⟩ ||
        findsBusy ⟨source, event, target⟩).toNat + target.pc.toStart := by
  cases step_cases taken with
  | kmaTooLong now fp pc long => exact absurd ((txLive_step live taken).popping rfl).2 (by decide)
  | kmaBusy now fp pc busy => exact absurd ((txLive_step live taken).popping rfl).2 (by decide)
  | setBaud baud pc =>
      simp [Event.isProcess, startedFrame, findsNoFrame, findsBusy, ysUartSetBaud_pc]
  | irq byte txDone now =>
      simp [Event.isProcess, startedFrame, findsNoFrame, findsBusy, ysUartIrqHandler]
  | send data len | attWrite packet =>
      simp [Event.isProcess, startedFrame, findsNoFrame, findsBusy]
  | txGet now fp pc get | txEmpty now pc get =>
      simp [Event.isProcess, startedFrame, findsNoFrame, findsBusy, pc, get, Pc.toStart]
  | txBusy now fp pc test | txFree now fp pc test =>
      simp [Event.isProcess, startedFrame, findsNoFrame, findsBusy, pc, test, Pc.toStart]
  | process pc | handlerDone fp len pc | handlerRefused ret fp len pc | idleFlush now pc
  | rxGet now fp pc | rxEmpty now pc | recvCall now fp pc | rxPop now pc | kmaLen now fp pc
  | kmaFree now fp pc | raiseBusyFlag now fp pc | armDelay now fp pc | startTx now fp pc
  | txPop now ret pc =>
      simp [Event.isProcess, startedFrame, findsNoFrame, findsBusy, pc, Pc.toStart]

theorem passes_start {start final : State} {edges : List Transition} (live : TxLive start)
    (run : Run step start edges final) :
    passes edges + start.pc.toStart =
      edges.countP (fun edge => (startedFrame edge).isSome || findsNoFrame edge || findsBusy edge) +
        final.pc.toStart :=
  run.balance _ _ (fun s => s.pc.toStart) TxLive live txLive_step start_step

/-! ## Passes drain the queue -/

/-- The tests of `uart_tx_is_busy` that kept a frame waiting. -/
def busyTests (edges : List Transition) : Nat :=
  edges.countP findsBusy

/-- A pass finds no frame only when none is waiting. -/
theorem waiting_of_findsNoFrame {edge : Transition} (none : findsNoFrame edge = true) :
    edge.source.waiting = [] := by
  unfold findsNoFrame at none
  split at none
  · next now event pc =>
      have backlog : edge.source.tx.backlog = 0 :=
        (MyFifo.get_eq_none_iff _).mp (Option.isNone_iff_eq_none.mp none)
      rw [State.waiting_eq_frames (by simp [pc])]
      exact List.length_eq_zero_iff.mp ((Tx.frames_length _).trans backlog)
  · cases none

section Drain

variable {baud : UInt8} {before after : List Transition} {start final : State}

/-- What is started and waiting after a while is what waited before it and was accepted in it. -/
theorem started_between (earlier : UartRun baud before start) (run : Run step start after final) :
    startedFrames after ++ final.waiting =
      start.waiting ++ (acceptedCalls after).map fun call => frame (clamped call.1 call.2) := by
  have first := (transmitted_run earlier).frames
  have whole := (transmitted_run (earlier.append run)).frames
  rw [startedFrames, acceptedCalls, List.filterMap_append, List.filterMap_append,
    List.map_append] at whole
  rw [startedFrames, acceptedCalls] at first
  rw [← first, List.append_assoc, List.append_assoc, List.append_cancel_left_eq] at whole
  exact whole

/--
As many passes as there are frames waiting, and one for each busy answer, start
these frames, in order and before any other.
-/
theorem waiting_drained (earlier : UartRun baud before start) (run : Run step start after final)
    (enough : start.waiting.length + busyTests after + final.pc.toStart ≤
      passes after + start.pc.toStart) :
    start.waiting <+: startedFrames after := by
  by_cases empty : ∃ edge ∈ after, findsNoFrame edge = true
  · obtain ⟨edge, member, none⟩ := empty
    obtain ⟨former, latter, rfl⟩ := List.append_of_mem member
    obtain ⟨first, _, _⟩ := run.split
    have accounted := started_between earlier first
    rw [waiting_of_findsNoFrame none, List.append_nil] at accounted
    rw [startedFrames, List.filterMap_append, ← startedFrames, accounted, List.append_assoc]
    exact List.prefix_append _ _
  · have turns := passes_start (txLive_run earlier) run
    have either : ∀ edges : List Transition, (∀ edge ∈ edges, findsNoFrame edge ≠ true) →
        edges.countP (fun edge =>
          (startedFrame edge).isSome || findsNoFrame edge || findsBusy edge) ≤
        (startedFrames edges).length + busyTests edges := by
      intro edges some
      rw [startedFrames, List.length_filterMap_eq_countP, busyTests]
      induction edges with
      | nil => simp
      | cons edge rest ih =>
          have later := ih fun other member => some other (List.mem_cons_of_mem _ member)
          have own := some edge List.mem_cons_self
          simp only [List.countP_cons]
          cases (startedFrame edge).isSome <;> cases busy : findsBusy edge <;> simp [own] <;> omega
    have bound := either after fun edge member none => empty ⟨edge, member, none⟩
    have accounted := started_between earlier run
    have begun := List.prefix_append (startedFrames after) final.waiting
    rw [accounted] at begun
    exact List.prefix_of_prefix_length_le (List.prefix_append _ _) begun (by omega)

end Drain

/-! ## The transmitter is never wedged -/

/-- From the busy test that lets a frame pass up to its start. -/
def Pc.starting : Pc → Bool
  | .sendKmaLen _ => true
  | .sendKmaBusy _ => true
  | .raiseBusyFlag _ => true
  | .armDelay _ => true
  | .startTx _ => true
  | _ => false

/-- A frame that the busy test has let pass goes on to its start. -/
theorem starting_step {source target : State} {event : Event} (live : TxLive source)
    (taken : step source event = some target) (starting : source.pc.starting = true) :
    (startedFrame ⟨source, event, target⟩).isSome = true ∨ target.pc.starting = true := by
  cases step_cases taken with
  | irq byte txDone now => exact Or.inr starting
  | kmaTooLong now fp pc long => exact absurd ((txLive_step live taken).popping rfl).2 (by decide)
  | kmaBusy now fp pc busy => exact absurd ((txLive_step live taken).popping rfl).2 (by decide)
  | kmaLen | kmaFree | raiseBusyFlag | armDelay => exact Or.inr rfl
  | startTx now fp pc =>
      rw [startedFrame_startTx pc]
      exact Or.inl rfl
  | send data len maySend enough => exact Or.inr starting
  | attWrite packet pc => exact Or.inr starting
  | setBaud baud pc =>
      rw [ysUartSetBaud_pc]
      exact Or.inr starting
  | process pc | handlerDone _ _ pc | handlerRefused _ _ _ pc | idleFlush _ pc | rxGet _ _ pc
  | rxEmpty _ pc | recvCall _ _ pc | rxPop _ pc | txGet _ _ pc | txEmpty _ pc | txBusy _ _ pc
  | txFree _ _ pc | txPop _ _ pc =>
      rw [pc] at starting
      cases starting

theorem starting_run {start final : State} {edges : List Transition} (live : TxLive start)
    (starting : start.pc.starting = true) (run : Run step start edges final) :
    startedFrames edges ≠ [] ∨ final.pc.starting = true := by
  induction run with
  | refl => exact Or.inr starting
  | tail run taken ih =>
      rw [startedFrames_last]
      rcases ih with begun | still
      · exact Or.inl fun none => begun (List.append_eq_nil_iff.mp none).1
      · have liveThere := run.invariant live txLive_step
        rcases starting_step liveThere taken still with started | on
        · obtain ⟨frame, shown⟩ := Option.isSome_iff_exists.mp started
          rw [shown]
          exact Or.inl fun none => List.cons_ne_nil _ _ (List.append_eq_nil_iff.mp none).2
        · exact Or.inr on

section Test

variable {boot : UartBaudTypeDef} {before after : List Transition} {edge : Transition}
  {final : State} {now fp : Nat}

/-- A busy answer comes before the timeout of the last start has run out. -/
theorem busy_armed (run : UartRun boot.code (before ++ edge :: after) final)
    (ordered : Ordered (before ++ edge :: after)) (event : edge.event = .statement now)
    (pc : edge.source.pc = .txIsBusy fp) (busy : findsBusy edge = true) :
    ∃ armed start length, lastArmed before = some armed ∧ lastStart before = some (start, length) ∧
      armed < start ∧ start < now ∧ (now - (armed ||| 1)) % 2 ^ 32 ≤ 32 * boot.rxIdle.toNat := by
  obtain ⟨earlier, _, _⟩ := run.split
  rw [findsBusy, event, pc] at busy
  dsimp only at busy
  have flag : edge.source.tx.uart.uartTxBusyFlag = true ∧
      uartTxTimeout edge.source.tx.uart now = false := by
    unfold uartTxIsBusy at busy
    split at busy
    · cases busy
    · next still => exact ⟨busy, Bool.eq_false_iff.mpr still⟩
  obtain ⟨armed, start, length, stamped, started⟩ :=
    armed_at_test earlier ordered.of_append pc flag.1
  have reading := stamped.moment event pc
  have pending := flag.2
  rw [← Bool.not_eq_true, uartTxTimeout_iff earlier stamped (ordered.lt stamped.member reading)]
    at pending
  exact ⟨armed, start, length, stamped.last, started.last, started.later,
    ordered.lt started.member reading, Nat.le_of_not_lt pending⟩

/-- A frame that is not kept waiting is started before the pass ends. -/
theorem free_started (run : UartRun boot.code (before ++ edge :: after) final)
    (event : edge.event = .statement now) (pc : edge.source.pc = .txIsBusy fp)
    (free : findsBusy edge = false) (outside : final.pc = .outside) :
    ∃ oldest, edge.source.waiting.head? = some oldest ∧
      (startedFrames after).head? = some oldest := by
  obtain ⟨source, label, target⟩ := edge
  dsimp only at event pc
  subst event
  obtain ⟨earlier, taken, later⟩ := run.split
  have live := txLive_run earlier
  have place := live.place
  rw [Place, pc] at place
  have answer : (uartTxIsBusy source.tx.uart now).1 = false := by
    rw [findsBusy] at free
    dsimp only at free
    rwa [pc] at free
  have crossed : target.pc = .sendKmaLen fp ∧ target.tx.uartTxFifo = source.tx.uartTxFifo := by
    dsimp only at taken
    simp only [step, statement, pc, answer, Bool.false_eq_true, if_false] at taken
    cases taken
    exact ⟨rfl, rfl⟩
  have waiting : source.waiting = target.waiting :=
    (State.waiting_keep crossed.2 (by rw [pc]; simp) (by rw [crossed.1]; simp)).symm
  have accounted := started_between (earlier.tail taken) later
  have starting : target.pc.starting = true := by
    rw [crossed.1]
    rfl
  rcases starting_run (txLive_step live taken) starting later with begun | still
  · obtain ⟨oldest, rest, shape⟩ := List.exists_cons_of_ne_nil begun
    have some : source.waiting ≠ [] := by
      rw [State.waiting_eq_frames (by rw [pc]; simp), Tx.frames_cons place.1.1]
      exact List.cons_ne_nil _ _
    obtain ⟨first, others, queued⟩ := List.exists_cons_of_ne_nil some
    dsimp only at accounted ⊢
    rw [shape, ← waiting, queued] at accounted
    cases (List.cons.inj accounted).1
    exact ⟨oldest, congrArg List.head? queued, congrArg List.head? shape⟩
  · rw [outside] at still
    cases still

/--
A frame is kept waiting only until the timeout of the last start, which is that
of the boot rate, has run out.  A frame that is not kept waiting is started
before the pass ends, so that no end of transmission has to be signalled for the
queue to move on.
-/
theorem busy_recent (run : UartRun boot.code (before ++ edge :: after) final)
    (ordered : Ordered (before ++ edge :: after)) (event : edge.event = .statement now)
    (pc : edge.source.pc = .txIsBusy fp) :
    (findsBusy edge = true → ∃ armed start length, lastArmed before = some armed ∧
      lastStart before = some (start, length) ∧ armed < start ∧ start < now ∧
      (now - (armed ||| 1)) % 2 ^ 32 ≤ 32 * boot.rxIdle.toNat) ∧
    (findsBusy edge = false → final.pc = .outside →
      ∃ oldest, edge.source.waiting.head? = some oldest ∧
        (startedFrames after).head? = some oldest) :=
  ⟨busy_armed run ordered event pc, free_started run event pc⟩

end Test

/--
Two frames queued, a pass that starts the first, one that finds the transmitter
busy, and one after the timeout that starts the second without an interrupt.
-/
def twoQueued : List Event :=
  [.send [1] 1, .send [2] 1] ++ transmission 1000 ++
    [.process, .statement 2000, .statement 2001, .statement 2002, .statement 2003] ++
    transmission 40000

set_option maxRecDepth 100000 in
theorem twoQueued_run :
    ∃ final, (trace step (ysUartInit powerOn 4) twoQueued).map Edge.event = twoQueued ∧
      UartRun 4 (trace step (ysUartInit powerOn 4) twoQueued) final ∧ final.pc = .outside := by
  have ends : (follow step (ysUartInit powerOn 4) twoQueued).map State.pc = some .outside := by
    decide +kernel
  obtain ⟨final, executed, outside⟩ := Option.map_eq_some_iff.mp ends
  obtain ⟨labels, run⟩ := trace_run executed
  exact ⟨final, labels, run, outside⟩

set_option maxRecDepth 100000 in
theorem busy_recent_twoQueued :
    ∃ edges final, edges.map Edge.event = twoQueued ∧ UartRun 4 edges final ∧
      (∃ before test after, edges = before ++ test :: after ∧ findsBusy test = true ∧
        ∃ armed start length, lastArmed before = some armed ∧
          lastStart before = some (start, length) ∧ start < 2003 ∧
          (2003 - (armed ||| 1)) % 2 ^ 32 ≤ 27776) ∧
      ∃ before test after, edges = before ++ test :: after ∧ findsBusy test = false ∧
        test.source.waiting.head? = some [1, 0, 0, 0, 2] ∧
        (startedFrames after).head? = some [1, 0, 0, 0, 2] := by
  obtain ⟨final, labels, run, outside⟩ := twoQueued_run
  have ordered : Ordered (trace step (ysUartInit powerOn 4) twoQueued) := by
    rw [Ordered]
    decide +kernel
  have second : (trace step (ysUartInit powerOn 4) twoQueued)[17]?.map (fun edge =>
      (edge.source.pc, findsBusy edge)) = some (.txIsBusy 24, true) := by
    decide +kernel
  have third : (trace step (ysUartInit powerOn 4) twoQueued)[22]?.map (fun edge =>
      (edge.source.pc, findsBusy edge, edge.source.waiting.head?)) =
      some (.txIsBusy 24, false, some [1, 0, 0, 0, 2]) := by
    decide +kernel
  refine ⟨_, final, labels, run, ?_, ?_⟩
  · obtain ⟨test, shown, facts⟩ := Option.map_eq_some_iff.mp second
    obtain ⟨pc, busy⟩ := Prod.mk.inj facts
    have event : test.event = .statement 2003 := (Option.some.inj (event_at labels shown)).symm
    have shape := eq_take_cons_drop shown
    rw [shape] at run ordered
    obtain ⟨armed, start, length, lastArm, last, _, earlier, soon⟩ :=
      (@busy_recent .uartBaud115200 _ _ _ _ _ _ run ordered event pc).1 busy
    exact ⟨_, test, _, shape, busy, armed, start, length, lastArm, last, earlier, soon⟩
  · obtain ⟨test, shown, facts⟩ := Option.map_eq_some_iff.mp third
    obtain ⟨pc, rest⟩ := Prod.mk.inj facts
    obtain ⟨free, queued⟩ := Prod.mk.inj rest
    have event : test.event = .statement 40003 := (Option.some.inj (event_at labels shown)).symm
    have shape := eq_take_cons_drop shown
    rw [shape] at run ordered
    obtain ⟨oldest, head, started⟩ :=
      (@busy_recent .uartBaud115200 _ _ _ _ _ _ run ordered event pc).2 free outside
    rw [queued] at head
    cases head
    exact ⟨_, test, _, shape, free, queued, started⟩

set_option maxRecDepth 100000 in
/-- With one busy answer it takes three passes to start two frames. -/
theorem waiting_drained_twoQueued :
    ∃ before after start final, UartRun 4 before start ∧ Run step start after final ∧
      start.waiting = [[1, 0, 0, 0, 1], [1, 0, 0, 0, 2]] ∧ busyTests after = 1 ∧
      passes after = 3 ∧ start.waiting <+: startedFrames after := by
  obtain ⟨final, labels, run, outside⟩ := twoQueued_run
  have queued : (trace step (ysUartInit powerOn 4) twoQueued)[1]?.map (fun second =>
      (second.target.waiting, second.target.pc)) =
      some ([[1, 0, 0, 0, 1], [1, 0, 0, 0, 2]], .outside) := by
    decide +kernel
  have counts : busyTests ((trace step (ysUartInit powerOn 4) twoQueued).drop 2) = 1 ∧
      passes ((trace step (ysUartInit powerOn 4) twoQueued).drop 2) = 3 := by
    decide +kernel
  obtain ⟨second, shown, facts⟩ := Option.map_eq_some_iff.mp queued
  obtain ⟨waiting, pc⟩ := Prod.mk.inj facts
  rw [eq_take_cons_drop shown] at run
  obtain ⟨begun, crossed, later⟩ := run.split
  refine ⟨_, _, _, final, begun.tail crossed, later, waiting, counts.1, counts.2,
    waiting_drained (begun.tail crossed) later ?_⟩
  rw [waiting, counts.1, counts.2, pc, outside]
  decide

end Ser2Ble.YsUart
