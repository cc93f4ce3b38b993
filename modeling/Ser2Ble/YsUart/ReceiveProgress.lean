import Ser2Ble.YsUart.IdleGap

/-!
# Progress of the receive side

A pass of `ys_uart_process` is at most thirteen steps long and never stuck,
whatever the interrupt does meanwhile.  It presents one packet or finds none, so
that enough passes deliver what was queued when they began.
-/

namespace Ser2Ble.YsUart

open Library Proj

/-! ## A pass returns -/

/-- The steps that a pass still has to make at most. -/
def Pc.rank : Pc → Nat
  | .outside => 0
  | .txPop _ => 1
  | .startTx _ => 2
  | .armDelay _ => 3
  | .raiseBusyFlag _ => 4
  | .sendKmaBusy _ => 5
  | .sendKmaLen _ => 6
  | .txIsBusy _ => 7
  | .txGet => 8
  | .rxPop => 9
  | .recvHandler _ _ => 10
  | .recvCall _ => 11
  | .rxGet => 12
  | .idleFlush => 13

/-- The event is a step of the main loop inside `ys_uart_process`. -/
def Event.advances : Event → Bool
  | .statement _ => true
  | .handlerReturn _ => true
  | _ => false

def Event.isProcess : Event → Bool
  | .process => true
  | _ => false

theorem Pc.rank_eq_zero {pc : Pc} (zero : pc.rank = 0) : pc = .outside := by
  cases pc with
  | outside => rfl
  | _ => cases zero

theorem step_rank {source target : State} {event : Event}
    (taken : step source event = some target) (within : event ≠ .process) :
    event.advances.toNat + target.pc.rank ≤ source.pc.rank := by
  cases step_cases taken with
  | process pc => exact absurd rfl within
  | setBaud baud pc => simp [Event.advances, ysUartSetBaud_pc]
  | irq byte txDone now => simp [Event.advances, ysUartIrqHandler]
  | send data len | attWrite packet => simp [Event.advances]
  | idleFlush now pc | rxGet now fp pc | rxEmpty now pc | recvCall now fp pc | handlerDone fp len pc
  | handlerRefused ret fp len pc | rxPop now pc | txGet now fp pc | txEmpty now pc
  | txBusy now fp pc | txFree now fp pc | kmaTooLong now fp pc | kmaLen now fp pc
  | kmaBusy now fp pc | kmaFree now fp pc | raiseBusyFlag now fp pc | armDelay now fp pc
  | startTx now fp pc | txPop now ret pc => simp [Event.advances, pc, Pc.rank]

/-- Inside `ys_uart_process` the next step can be made, whatever the clock or the handler says. -/
theorem next_enabled {s : State} (inside : s.pc ≠ .outside) :
    (∀ now, (step s (.statement now)).isSome = true) ∨
      ∀ ret, (step s (.handlerReturn ret)).isSome = true := by
  cases pc : s.pc with
  | outside => exact absurd pc inside
  | recvHandler fp len =>
      right
      intro ret
      by_cases done : ret = 0 <;> simp [step, pc, done]
  | rxGet =>
      left
      intro now
      cases get : myFifoGet s.rx.uartRxFifo <;> simp [step, statement, pc, get]
  | txGet =>
      left
      intro now
      cases get : myFifoGet s.tx.uartTxFifo <;> simp [step, statement, pc, get]
  | txIsBusy fp | sendKmaBusy fp =>
      left
      intro now
      cases busy : (uartTxIsBusy s.tx.uart now).1 <;> simp [step, statement, pc, busy]
  | sendKmaLen fp =>
      left
      intro now
      by_cases long : 252 < loadU32 s.tx.cells fp <;> simp [step, statement, pc, long]
  | _ =>
      left
      intro now
      simp [step, statement, pc]

/--
From its call on `ys_uart_process` makes at most thirteen steps, none of which
an interrupt can take away, and after thirteen it has returned.
-/
theorem pass_returns {baud : UInt8} {before during : List Transition} {call : Transition}
    {final : State} (run : UartRun baud (before ++ call :: during) final)
    (called : call.event = .process) (within : ∀ edge ∈ during, edge.event ≠ .process) :
    during.countP (fun edge => edge.event.advances) ≤ 13 ∧
      (during.countP (fun edge => edge.event.advances) = 13 → final.pc = .outside) ∧
      (final.pc ≠ .outside → (∀ now, (step final (.statement now)).isSome = true) ∨
        ∀ ret, (step final (.handlerReturn ret)).isSome = true) := by
  obtain ⟨_, taken, rest⟩ := run.split
  have begun : call.target.pc.rank = 13 := by
    obtain ⟨source, event, target⟩ := call
    dsimp only at called taken ⊢
    subst called
    obtain ⟨_, same⟩ := Option.ite_none_right_eq_some.mp taken
    cases same
    rfl
  have bounded : during.countP (fun edge => edge.event.advances) + final.pc.rank ≤
      call.target.pc.rank :=
    rest.descends (fun edge => edge.event.advances) (fun s => s.pc.rank) within step_rank
  rw [begun] at bounded
  exact ⟨by omega, fun all => Pc.rank_eq_zero (by omega), next_enabled⟩

/-! ## A pass presents one packet or finds none -/

/-- A pass that has still to look for a packet, or to present it. -/
def Pc.toPresent : Pc → Nat
  | .idleFlush => 1
  | .rxGet => 1
  | .recvCall _ => 1
  | .recvHandler _ _ => 1
  | _ => 0

/-- `my_fifo_get(&uart_rx_fifo)` finds no packet. -/
def findsNone (edge : Transition) : Bool :=
  match edge.event, edge.source.pc with
  | .statement _, .rxGet => (myFifoGet edge.source.rx.uartRxFifo).isNone
  | _, _ => false

/-- The calls of `ys_uart_process`. -/
def passes (edges : List Transition) : Nat :=
  edges.countP fun edge => edge.event.isProcess

theorem present_step {source target : State} {event : Event}
    (taken : step source event = some target) :
    event.isProcess.toNat + source.pc.toPresent =
      ((handlerCall ⟨source, event, target⟩).isSome || findsNone ⟨source, event, target⟩).toNat +
        target.pc.toPresent := by
  cases step_cases taken with
  | process pc => simp [Event.isProcess, handlerCall, findsNone, pc, Pc.toPresent]
  | handlerDone fp len pc =>
      rw [handlerCall_returned pc]
      simp [Event.isProcess, pc, Pc.toPresent]
  | handlerRefused ret fp len pc refused =>
      rw [handlerCall_returned pc]
      simp [Event.isProcess, pc, Pc.toPresent]
  | rxGet now fp pc get => simp [Event.isProcess, handlerCall, findsNone, pc, get, Pc.toPresent]
  | rxEmpty now pc get => simp [Event.isProcess, handlerCall, findsNone, pc, get, Pc.toPresent]
  | setBaud baud pc => simp [Event.isProcess, handlerCall, findsNone, ysUartSetBaud_pc]
  | irq byte txDone now => simp [Event.isProcess, handlerCall, findsNone, ysUartIrqHandler]
  | send data len | attWrite packet => simp [Event.isProcess, handlerCall, findsNone]
  | idleFlush now pc | recvCall now fp pc | rxPop now pc | txGet now fp pc | txEmpty now pc
  | txBusy now fp pc | txFree now fp pc | kmaTooLong now fp pc | kmaLen now fp pc
  | kmaBusy now fp pc | kmaFree now fp pc | raiseBusyFlag now fp pc | armDelay now fp pc
  | startTx now fp pc | txPop now ret pc =>
      simp [Event.isProcess, handlerCall, findsNone, pc, Pc.toPresent]

theorem passes_present {start final : State} {edges : List Transition}
    (run : Run step start edges final) :
    passes edges + start.pc.toPresent =
      edges.countP (fun edge => (handlerCall edge).isSome || findsNone edge) +
        final.pc.toPresent :=
  run.balance _ _ (fun s => s.pc.toPresent) (fun _ => True) trivial (fun _ _ => trivial)
    fun _ taken => present_step taken

/-! ## Passes drain the queue -/

/-- The calls of the handler that did not return 0. -/
def refusals (edges : List Transition) : Nat :=
  (handlerCalls edges).countP fun call => decide (call.2 ≠ 0)

/-- A call of the handler delivers its packet or refuses it. -/
theorem calls_length (edges : List Transition) :
    (handlerCalls edges).length = (delivered edges).length + refusals edges := by
  have taken : (delivered edges).length =
      (handlerCalls edges).countP fun call => decide (call.2 = 0) := by
    rw [delivered, List.length_filterMap_eq_countP]
    refine List.countP_congr fun call _ => ?_
    by_cases zero : call.2 = 0 <;> simp [zero]
  rw [taken, refusals, List.length_eq_countP_add_countP fun call => decide (call.2 = 0)]
  simp

theorem delivered_append (first second : List Transition) :
    delivered (first ++ second) = delivered first ++ delivered second := by
  rw [delivered, handlerCalls, List.filterMap_append, List.filterMap_append, delivered, delivered,
    handlerCalls, handlerCalls]

theorem committedPackets_append (first second : List Transition) :
    committedPackets (first ++ second) = committedPackets first ++ committedPackets second :=
  List.filterMap_append

/-- A pass finds no packet only when none is queued. -/
theorem queue_of_findsNone {edge : Transition} (none : findsNone edge = true) :
    edge.source.packets.queue = [] := by
  unfold findsNone at none
  split at none
  · next now event pc =>
      have backlog : edge.source.rx.backlog = 0 :=
        (MyFifo.get_eq_none_iff _).mp (Option.isNone_iff_eq_none.mp none)
      have same : edge.source.packets = edge.source.rx.packets := if_neg (by simp [pc])
      rw [same]
      exact List.length_eq_zero_iff.mp ((Rx.queued_length _).trans backlog)
  · cases none

section Drain

variable {baud : UInt8} {before after : List Transition} {start final : State}

/-- What is delivered and queued after a while is what was queued before it and committed in it. -/
theorem delivered_between (earlier : UartRun baud before start) (run : Run step start after final)
    (below : ∀ edge ∈ before ++ after, CommitsBelow edge) :
    delivered after ++ final.packets.queue = start.packets.queue ++ committedPackets after := by
  have first := (streamed_run earlier fun edge member =>
    below edge (List.mem_append_left _ member)).committed
  have whole := (streamed_run (earlier.append run) below).committed
  rw [delivered_append, committedPackets_append, ← first, List.append_assoc, List.append_assoc,
    List.append_cancel_left_eq] at whole
  exact whole

/-- As many passes as there are packets queued, and one for each refusal, deliver as many packets. -/
theorem enough_delivered (earlier : UartRun baud before start) (run : Run step start after final)
    (below : ∀ edge ∈ before ++ after, CommitsBelow edge)
    (enough : start.packets.queue.length + refusals after + final.pc.toPresent ≤
      passes after + start.pc.toPresent) :
    start.packets.queue.length ≤ (delivered after).length := by
  by_cases empty : ∃ edge ∈ after, findsNone edge = true
  · obtain ⟨edge, member, none⟩ := empty
    obtain ⟨former, latter, rfl⟩ := List.append_of_mem member
    obtain ⟨first, _, _⟩ := run.split
    have sofar : ∀ other ∈ before ++ former, CommitsBelow other := by
      intro other inside
      refine below other ?_
      rw [← List.append_assoc]
      exact List.mem_append_left _ inside
    have accounted := delivered_between earlier first sofar
    rw [queue_of_findsNone none, List.append_nil] at accounted
    rw [delivered_append, accounted, List.length_append, List.length_append]
    omega
  · have calls : after.countP (fun edge => (handlerCall edge).isSome || findsNone edge) =
        (handlerCalls after).length := by
      rw [handlerCalls, List.length_filterMap_eq_countP]
      refine List.countP_congr fun edge member => ?_
      have some : findsNone edge = false := by
        by_contra none
        exact empty ⟨edge, member, by simpa using none⟩
      simp [some]
    have turns := passes_present run
    rw [calls, calls_length] at turns
    omega

/--
As many passes as there are packets queued, and one for each refusal, deliver
these packets, in order and before any other, whatever arrives meanwhile.
-/
theorem queue_drained (earlier : UartRun baud before start) (run : Run step start after final)
    (below : ∀ edge ∈ before ++ after, CommitsBelow edge)
    (enough : start.packets.queue.length + refusals after + final.pc.toPresent ≤
      passes after + start.pc.toPresent) :
    start.packets.queue <+: delivered after := by
  have accounted := delivered_between earlier run below
  refine List.prefix_of_prefix_length_le (List.prefix_append _ (committedPackets after)) ?_
    (enough_delivered earlier run below enough)
  rw [← accounted]
  exact List.prefix_append _ _

end Drain

/-! ## Everything received is delivered -/

theorem Pc.toPresent_le (pc : Pc) : pc.toPresent ≤ 1 := by
  cases pc <;> simp [Pc.toPresent]

/-- After an idle test the pass has still to present a packet. -/
theorem SeesGap.toPresent {first : Nat} {check : Transition} (gap : SeesGap first check)
    (taken : step check.source check.event = some check.target) :
    check.target.pc.toPresent = 1 := by
  obtain ⟨now, event, pc, _⟩ := gap
  rw [event] at taken
  simp only [step, statement, pc, Option.some.injEq] at taken
  rw [← taken]
  rfl

/-- The last byte of a run that received one, and the silence after it. -/
theorem lastByteTime_split {edges : List Transition} {first : Nat}
    (last : lastByteTime edges = some first) :
    ∃ before source a txDone target middle,
      edges = before ++ ⟨source, .irq (some a) txDone first, target⟩ :: middle ∧
        ∀ edge ∈ middle, edge.event.byte = none := by
  induction edges using List.reverseRecOn with
  | nil => cases last
  | append_singleton edges edge ih =>
      obtain ⟨source, event, target⟩ := edge
      cases silent : event.byte with
      | none =>
          rw [lastByteTime_none edges silent] at last
          obtain ⟨before, s, a, txDone, t, middle, rfl, quietly⟩ := ih last
          refine ⟨before, s, a, txDone, t, middle ++ [⟨source, event, target⟩], by simp, ?_⟩
          exact forall_mem_last quietly silent
      | some a =>
          cases event with
          | irq byte txDone now =>
              cases silent
              rw [lastByteTime_some edges rfl] at last
              cases last
              exact ⟨edges, source, a, txDone, target, [], rfl, by simp⟩
          | _ => cases silent

section Silence

variable {baud : UInt8} {before rest : List Transition} {check : Transition} {final : State}
  {first : Nat}

/-- Silence, a gap that was seen and passes enough leave nothing queued or under assembly. -/
theorem nothing_left (run : UartRun baud (before ++ check :: rest) final)
    (increasing : Increasing (before ++ check :: rest))
    (below : ∀ edge ∈ before ++ check :: rest, CommitsBelow edge)
    (last : lastByteTime before = some first) (silent : ∀ edge ∈ rest, edge.event.byte = none)
    (gap : SeesGap first check)
    (enough : check.target.packets.queue.length + refusals rest ≤ passes rest) :
    final.packets.queue = [] ∧ final.packets.current = [] := by
  obtain ⟨formerly, crossed, later⟩ := run.split
  have earlier : UartRun baud (before ++ [check]) check.target := formerly.tail crossed
  rw [List.append_cons before check rest] at increasing below
  have inFirst := fun edge member => below edge (List.mem_append_left rest member)
  have inRest := fun edge member => below edge (List.mem_append_right (before ++ [check]) member)
  have streaming := earlier.preserves (init_streaming baud) streaming_step inFirst
  -- the gap closes what was under assembly
  have empty : check.target.packets.current = [] := by
    obtain ⟨b, source, a, txDone, target, middle, rfl, quiet⟩ := lastByteTime_split last
    have checkSilent : check.event.byte = none := by
      obtain ⟨now, event, _⟩ := gap
      rw [event]
      rfl
    have ordered := increasing.of_append
    rw [List.append_assoc, List.cons_append] at earlier inFirst ordered
    rcases between_bytes earlier ordered inFirst (forall_mem_last quiet checkSilent) with
      ⟨_, closed, _⟩ | ⟨unseen, _⟩
    · exact closed
    · exact absurd (Or.inr ⟨check, List.mem_concat_self, gap⟩) unseen
  -- the passes after it deliver all that is queued
  obtain ⟨still, none⟩ := empty_run streaming empty later inRest silent
  have accounted := delivered_between earlier later below
  have drained := enough_delivered earlier later below (by
    have one := gap.toPresent crossed
    have last := final.pc.toPresent_le
    omega)
  rw [none, List.append_nil] at accounted
  have length := congrArg List.length accounted
  rw [List.length_append] at length
  exact ⟨List.length_eq_zero_iff.mp (by omega), still⟩

/--
Once the line is silent, an idle test has seen the gap, and as many passes as
packets are queued and refusals met have gone by, every byte received has been
delivered.
-/
theorem all_delivered (run : UartRun baud (before ++ check :: rest) final)
    (increasing : Increasing (before ++ check :: rest))
    (below : ∀ edge ∈ before ++ check :: rest, CommitsBelow edge)
    (last : lastByteTime before = some first) (silent : ∀ edge ∈ rest, edge.event.byte = none)
    (gap : SeesGap first check)
    (enough : check.target.packets.queue.length + refusals rest ≤ passes rest) :
    (delivered (before ++ check :: rest)).flatten = received (before ++ check :: rest) := by
  obtain ⟨queue, current⟩ := nothing_left run increasing below last silent gap enough
  have bytes := (streamed_run run below).bytes
  rw [Packets.stream, queue, current, List.flatten_nil, List.append_nil, List.append_nil] at bytes
  exact bytes

end Silence

/-- A pass that presents a packet, which the handler answers with `ret`. -/
def presentation (start : Nat) (ret : Int) : List Event :=
  [.process, .statement start, .statement (start + 1), .statement (start + 2), .handlerReturn ret] ++
    (if ret = 0 then [.statement (start + 3)] else []) ++ [.statement (start + 4)]

/-- Two bytes, each closed by a gap, and the first packet refused once before and once after it. -/
def twoPackets : List Event :=
  .irq (some 7) false 1000 :: presentation 20000 1 ++ .irq (some 8) false 21000 ::
    presentation 40000 1 ++ presentation 50000 0 ++ presentation 60000 0 ++ [.process]

set_option maxRecDepth 100000 in
theorem twoPackets_run :
    ∃ before check rest final, UartRun 4 (before ++ check :: rest) final ∧
      Increasing (before ++ check :: rest) ∧
      (∀ edge ∈ before ++ check :: rest, CommitsBelow edge) ∧ lastByteTime before = some 21000 ∧
      received (before ++ check :: rest) = [7, 8] ∧ (∀ edge ∈ rest, edge.event.byte = none) ∧
      SeesGap 21000 check ∧ check.target.packets.queue = [[7], [8]] ∧ refusals rest = 1 ∧
      passes rest = 3 := by
  obtain ⟨final, labels, run⟩ := @enabled_run _ _ step (ysUartInit powerOn 4) twoPackets
    (by decide +kernel)
  have increasing : Increasing (trace step (ysUartInit powerOn 4) twoPackets) := by
    rw [Increasing]
    decide +kernel
  have below : ∀ edge ∈ trace step (ysUartInit powerOn 4) twoPackets, CommitsBelow edge := by
    decide +kernel
  have last : lastByteTime ((trace step (ysUartInit powerOn 4) twoPackets).take 9) =
      some 21000 := by
    decide +kernel
  have tested : (trace step (ysUartInit powerOn 4) twoPackets)[9]?.map (fun check =>
      (check.source.pc, check.source.rx.uartRxIdle.toNat, check.target.packets.queue)) =
      some (.idleFlush, 868, [[7], [8]]) := by
    decide +kernel
  have bytes : received (trace step (ysUartInit powerOn 4) twoPackets) = [7, 8] ∧
      ∀ edge ∈ (trace step (ysUartInit powerOn 4) twoPackets).drop 10,
        edge.event.byte = none := by
    decide +kernel
  have counts : refusals ((trace step (ysUartInit powerOn 4) twoPackets).drop 10) = 1 ∧
      passes ((trace step (ysUartInit powerOn 4) twoPackets).drop 10) = 3 := by
    decide +kernel
  obtain ⟨check, shown, facts⟩ := Option.map_eq_some_iff.mp tested
  obtain ⟨pc, rest⟩ := Prod.mk.inj facts
  obtain ⟨idle, queue⟩ := Prod.mk.inj rest
  have event : check.event = .statement 40000 := (Option.some.inj (event_at labels shown)).symm
  have shape := eq_take_cons_drop shown
  have heard := bytes.1
  rw [shape] at run increasing below heard
  refine ⟨_, check, _, final, run, increasing, below, last, heard, bytes.2, ⟨40000, event, pc, ?_⟩,
    queue, counts⟩
  rw [idle]
  decide

theorem queue_drained_twoPackets :
    ∃ before after start final, UartRun 4 before start ∧ Run step start after final ∧
      start.packets.queue = [[7], [8]] ∧ refusals after = 1 ∧ [[7], [8]] <+: delivered after := by
  obtain ⟨before, check, rest, final, run, _, below, _, _, _, gap, queue, refused, three⟩ :=
    twoPackets_run
  obtain ⟨formerly, crossed, later⟩ := run.split
  rw [List.append_cons] at below
  have present := gap.toPresent crossed
  have last := final.pc.toPresent_le
  have drained := queue_drained (formerly.tail crossed) later below (by
    rw [queue, refused, three, present]
    change 2 + 1 + final.pc.toPresent ≤ 3 + 1
    omega)
  rw [queue] at drained
  exact ⟨_, rest, _, final, formerly.tail crossed, later, queue, refused, drained⟩

theorem all_delivered_twoPackets :
    ∃ edges final, UartRun 4 edges final ∧ received edges = [7, 8] ∧
      (delivered edges).flatten = [7, 8] := by
  obtain ⟨before, check, rest, final, run, increasing, below, last, bytes, silent, gap, queue, refused,
    three⟩ := twoPackets_run
  have enough : check.target.packets.queue.length + refusals rest ≤ passes rest := by
    rw [queue, refused, three]
    decide
  refine ⟨_, final, run, bytes, ?_⟩
  rw [← bytes]
  exact all_delivered run increasing below last silent gap enough

end Ser2Ble.YsUart
