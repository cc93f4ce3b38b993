import Ser2Ble.YsUart.TransmitInvariant

/-!
# The transmit path as a bounded queue

Every transition keeps the queue of waiting frames, appends the frame of an
accepted `ys_uart_send` call, or takes the oldest frame and starts it.  Along a
run the frames started and the frames waiting are the frames accepted.
-/

namespace Ser2Ble.YsUart

open Library Proj App

/-! ## One transition, one queue operation -/

/-- The accepted frames not yet started; between start and pop the oldest slot is started. -/
def State.waiting (s : State) : List (List UInt8) :=
  match s.pc with
  | .txPop _ => s.tx.frames.tail
  | _ => s.tx.frames

/-- The frame that the DMA is started on, at the address that `STARTTX` leaves in its register. -/
def startedFrame (edge : Transition) : Option (List UInt8) :=
  match edge.event, edge.source.pc with
  | .statement _, .startTx _ =>
      some (frameAt edge.target.tx.cells edge.target.tx.uart.regDma1Addr)
  | _, _ => none

theorem startedFrame_startTx {s target : State} {now fp : Nat} (pc : s.pc = .startTx fp) :
    startedFrame ⟨s, .statement now, target⟩ =
      some (frameAt target.tx.cells target.tx.uart.regDma1Addr) := by
  unfold startedFrame
  dsimp only
  rw [pc]

theorem startedFrame_none {edge : Transition} (elsewhere : ∀ fp, edge.source.pc ≠ .startTx fp) :
    startedFrame edge = none := by
  unfold startedFrame
  split
  · next fp _ pc => exact absurd pc (elsewhere fp)
  · rfl

/-- The arguments of a `ys_uart_send` call that returned 0. -/
def acceptedCall (edge : Transition) : Option (List UInt8 × UInt8) :=
  match sendCall edge.event with
  | some (data, len) =>
      if (ysUartSend edge.source.tx data len).2 = 0 then some (data, len) else none
  | none => none

inductive QueueStep (edge : Transition) : Prop where
  | keep (unaccepted : acceptedCall edge = none) (unstarted : startedFrame edge = none)
      (waiting : edge.target.waiting = edge.source.waiting)
  | accept (data : List UInt8) (len : UInt8) (accepted : acceptedCall edge = some (data, len))
      (unstarted : startedFrame edge = none)
      (waiting : edge.target.waiting = edge.source.waiting ++ [frame (clamped data len)])
  | start (oldest : List UInt8) (unaccepted : acceptedCall edge = none)
      (started : startedFrame edge = some oldest)
      (waiting : edge.source.waiting = oldest :: edge.target.waiting)

theorem Tx.frames_congr {before after : Tx} (fifo : after.uartTxFifo = before.uartTxFifo) :
    after.frames = before.frames := by
  rw [Tx.frames, Tx.frames, Tx.backlog, Tx.backlog, Tx.cells, Tx.cells, fifo]

theorem State.waiting_eq_frames {s : State} (elsewhere : ∀ ret, s.pc ≠ .txPop ret) :
    s.waiting = s.tx.frames := by
  unfold State.waiting
  split
  · next ret pc => exact absurd pc (elsewhere ret)
  · rfl

theorem State.waiting_keep {source target : State}
    (fifo : target.tx.uartTxFifo = source.tx.uartTxFifo)
    (before : ∀ ret, source.pc ≠ .txPop ret) (after : ∀ ret, target.pc ≠ .txPop ret) :
    target.waiting = source.waiting := by
  rw [State.waiting_eq_frames before, State.waiting_eq_frames after, Tx.frames_congr fifo]

theorem maySend_elsewhere {pc : Pc} (maySend : pc.maySend = true) (ret : UInt8) :
    pc ≠ .txPop ret := by
  rintro rfl
  cases maySend

theorem acceptedCall_some {edge : Transition} {data : List UInt8} {len : UInt8}
    (call : sendCall edge.event = some (data, len)) :
    acceptedCall edge =
      if (ysUartSend edge.source.tx data len).2 = 0 then some (data, len) else none := by
  rw [acceptedCall, call]

theorem minusOne_ne : (-1 : Int) ≠ 0 := by
  decide

/-- A `ys_uart_send` call appends its frame, or is refused and changes nothing. -/
theorem queue_step_send {source : State} {event : Event} {data : List UInt8} {len : UInt8}
    (sound : source.tx.Sound) (call : sendCall event = some (data, len))
    (maySend : source.pc.maySend = true) (enough : len.toNat ≤ data.length)
    (unstarted : startedFrame
      ⟨source, event, { source with tx := (ysUartSend source.tx data len).1 }⟩ = none) :
    QueueStep ⟨source, event, { source with tx := (ysUartSend source.tx data len).1 }⟩ := by
  by_cases room : source.tx.backlog < 8
  · have sent := ysUartSend_room room enough
    refine .accept data len ?_ unstarted ?_
    · exact (acceptedCall_some call).trans (if_pos (by rw [sent]))
    · have after : State.waiting { source with tx := (ysUartSend source.tx data len).1 } =
          (ysUartSend source.tx data len).1.frames :=
        State.waiting_eq_frames (maySend_elsewhere maySend)
      rw [after, sent, sound.accept_frames room (clamped_short enough)]
      dsimp only
      rw [State.waiting_eq_frames (maySend_elsewhere maySend)]
  · have refused := ysUartSend_full data len room
    refine .keep ?_ unstarted ?_
    · exact (acceptedCall_some call).trans (if_neg (by rw [refused]; exact minusOne_ne))
    · rw [refused]

theorem queue_step {source target : State} {event : Event} (live : TxLive source)
    (taken : step source event = some target) : QueueStep ⟨source, event, target⟩ := by
  have after := txLive_step live taken
  cases step_cases taken with
  | irq byte txDone now =>
      have fifo : (ysUartIrqHandler source byte txDone now).tx.uartTxFifo =
          source.tx.uartTxFifo := by
        cases txDone <;> rfl
      refine .keep rfl rfl ?_
      have same : (ysUartIrqHandler source byte txDone now).pc = source.pc := rfl
      change State.waiting _ = _
      rw [State.waiting, State.waiting, same, Tx.frames_congr fifo]
  | send data len maySend enough => exact queue_step_send live.sound rfl maySend enough rfl
  | attWrite packet pc =>
      have enough : (UInt8.ofNat (packet.l2capLen.toNat - 3)).toNat ≤ packet.value.length := by
        rw [packet.narrowed]
        exact Nat.mod_le _ _
      exact queue_step_send live.sound rfl (by rw [pc]; rfl) enough rfl
  | startTx now fp pc =>
      have place := live.place
      rw [Place, pc] at place
      obtain ⟨some, oldest⟩ := place
      refine .start (frameAt source.tx.cells fp) rfl (startedFrame_startTx pc) ?_
      have waiting := @State.waiting_eq_frames source (by rw [pc]; simp)
      change source.waiting = _ :: source.tx.frames.tail
      rw [waiting, Tx.frames_cons some, List.tail_cons, oldest]
  | txPop now ret pc =>
      have some := (live.popping pc).1.1
      refine .keep rfl (startedFrame_none (by rw [pc]; simp)) ?_
      change source.tx.pop.frames = _
      dsimp only
      rw [State.waiting, pc]
      dsimp only
      rw [Tx.frames_cons some, List.tail_cons]
  | kmaTooLong now fp pc long => exact absurd (after.popping rfl).2 (by decide)
  | kmaBusy now fp pc busy => exact absurd (after.popping rfl).2 (by decide)
  | setBaud baud pc =>
      refine .keep rfl rfl (State.waiting_keep (ysUartSetBaud_tx source baud).1 ?_ ?_)
      · rw [pc]
        simp
      · rw [ysUartSetBaud_pc, pc]
        simp
  | process pc | handlerDone _ _ pc | handlerRefused _ _ _ pc =>
      exact .keep rfl rfl (State.waiting_keep rfl (by rw [pc]; simp) (by simp))
  | idleFlush _ pc | rxGet _ _ pc | rxEmpty _ pc | recvCall _ _ pc | rxPop _ pc | txGet _ _ pc
  | txEmpty _ pc | txBusy _ _ pc | txFree _ _ pc | kmaLen _ _ pc | kmaFree _ _ pc
  | raiseBusyFlag _ _ pc | armDelay _ _ pc =>
      exact .keep rfl (startedFrame_none (by rw [pc]; simp))
        (State.waiting_keep rfl (by rw [pc]; simp) (by simp))

/-! ## Along a run -/

def startedFrames (edges : List Transition) : List (List UInt8) :=
  edges.filterMap startedFrame

def acceptedCalls (edges : List Transition) : List (List UInt8 × UInt8) :=
  edges.filterMap acceptedCall

/-- The frames started and the frames waiting are the frames accepted, in order. -/
structure Transmitted (edges : List Transition) (final : State) : Prop where
  frames : startedFrames edges ++ final.waiting =
    (acceptedCalls edges).map fun call => frame (clamped call.1 call.2)
  /-- what is about to be popped is the frame started last -/
  popping : ∀ ret, final.pc = .txPop ret →
    (startedFrames edges).getLast? = some (frameAt final.tx.cells (final.tx.waitingSlot 0))

theorem startedFrames_last (edges : List Transition) (edge : Transition) :
    startedFrames (edges ++ [edge]) = startedFrames edges ++ (startedFrame edge).toList :=
  filterMap_last _ edges edge

theorem acceptedCalls_last (edges : List Transition) (edge : Transition) :
    acceptedCalls (edges ++ [edge]) = acceptedCalls edges ++ (acceptedCall edge).toList :=
  filterMap_last _ edges edge

theorem frames_step {edges : List Transition} {edge : Transition}
    (frames : startedFrames edges ++ edge.source.waiting =
      (acceptedCalls edges).map fun call => frame (clamped call.1 call.2))
    (operation : QueueStep edge) :
    startedFrames (edges ++ [edge]) ++ edge.target.waiting =
      (acceptedCalls (edges ++ [edge])).map fun call => frame (clamped call.1 call.2) := by
  rw [startedFrames_last, acceptedCalls_last, List.map_append, ← frames]
  cases operation with
  | keep unaccepted unstarted waiting =>
      rw [unaccepted, unstarted, waiting, Option.toList_none, Option.toList_none, List.append_nil,
        List.map_nil, List.append_nil]
  | accept data len accepted unstarted waiting =>
      rw [accepted, unstarted, waiting, Option.toList_none, List.append_nil, List.append_assoc]
      rfl
  | start oldest unaccepted started waiting =>
      rw [unaccepted, started, waiting, Option.toList_none, List.map_nil, List.append_nil,
        List.append_assoc, Option.toList_some, List.singleton_append]

theorem popping_step {edges : List Transition} {source target : State} {event : Event}
    (live : TxLive source)
    (popping : ∀ ret, source.pc = .txPop ret → (startedFrames edges).getLast? =
      some (frameAt source.tx.cells (source.tx.waitingSlot 0)))
    (taken : step source event = some target) :
    ∀ ret, target.pc = .txPop ret →
      (startedFrames (edges ++ [⟨source, event, target⟩])).getLast? =
        some (frameAt target.tx.cells (target.tx.waitingSlot 0)) := by
  have after := txLive_step live taken
  intro ret pc
  rw [startedFrames_last]
  cases step_cases taken with
  | irq byte txDone now =>
      have unstarted : startedFrame ⟨source, .irq byte txDone now,
          ysUartIrqHandler source byte txDone now⟩ = none := rfl
      have fifo : (ysUartIrqHandler source byte txDone now).tx.uartTxFifo =
          source.tx.uartTxFifo := by
        cases txDone <;> rfl
      rw [unstarted, Option.toList_none, List.append_nil, popping ret pc, Tx.cells, Tx.cells,
        Tx.waitingSlot, Tx.waitingSlot, fifo]
  | startTx now fp place =>
      have before := live.place
      rw [Place, place] at before
      rw [startedFrame_startTx place, Option.toList_some, List.getLast?_concat, before.2]
      rfl
  | kmaTooLong now fp place long => exact absurd (after.popping rfl).2 (by decide)
  | kmaBusy now fp place busy => exact absurd (after.popping rfl).2 (by decide)
  | send data len maySend enough => exact absurd pc (maySend_elsewhere maySend ret)
  | attWrite packet place =>
      rw [place] at pc
      cases pc
  | setBaud baud place =>
      rw [ysUartSetBaud_pc, place] at pc
      cases pc
  | _ => cases pc

theorem transmitted_run {baud : UInt8} {edges : List Transition} {final : State}
    (run : UartRun baud edges final) : Transmitted edges final := by
  induction run with
  | refl =>
      have empty : (ysUartInit powerOn baud).waiting = [] := by
        have elsewhere : ∀ ret, (ysUartInit powerOn baud).pc ≠ .txPop ret := by
          intro ret
          rw [init_pc]
          simp
        rw [State.waiting_eq_frames elsewhere]
        apply List.length_eq_zero_iff.mp
        rw [Tx.frames_length, Tx.backlog, (init_tx baud).1]
        decide
      refine ⟨?_, fun ret pc => ?_⟩
      · rw [empty]
        rfl
      · rw [init_pc] at pc
        cases pc
  | tail run taken ih =>
      have live := txLive_run run
      exact ⟨frames_step ih.frames (queue_step live taken), popping_step live ih.popping taken⟩

/-! ## Results of `ys_uart_send` -/

theorem Tx.Sound.send_result {tx : Tx} (sound : tx.Sound) {data : List UInt8} {len : UInt8}
    (enough : len.toNat ≤ data.length) :
    ((ysUartSend tx data len).2 = 0 ∨ (ysUartSend tx data len).2 = -1) ∧
      ((ysUartSend tx data len).2 = -1 ↔ tx.backlog = 8) ∧
      ((ysUartSend tx data len).2 = -1 → (ysUartSend tx data len).1 = tx) := by
  have bound := sound.backlog
  by_cases room : tx.backlog < 8
  · rw [ysUartSend_room room enough]
    exact ⟨Or.inl rfl, iff_of_false minusOne_ne.symm (by omega),
      fun refused => absurd refused.symm minusOne_ne⟩
  · rw [ysUartSend_full data len room]
    exact ⟨Or.inr rfl, iff_of_true rfl (by omega), fun _ => rfl⟩

/-- The payloads, as given, of the calls that returned 0. -/
def acceptedPayloads (edges : List Transition) : List (List UInt8) :=
  (acceptedCalls edges).map fun call => call.1.take call.2.toNat

theorem acceptedCall_mem {edges : List Transition} {data : List UInt8} {len : UInt8}
    (member : (data, len) ∈ acceptedCalls edges) :
    ∃ edge ∈ edges, sendCall edge.event = some (data, len) := by
  obtain ⟨edge, inside, accepted⟩ := List.mem_filterMap.mp member
  refine ⟨edge, inside, ?_⟩
  unfold acceptedCall at accepted
  split at accepted
  · next first second call =>
      split at accepted
      · cases accepted
        exact call
      · cases accepted
  · cases accepted

/--
With payloads of at most 20 bytes the transmit path is a FIFO queue of 8
packets: what was started is what was accepted, a refusal happens exactly at 8
waiting packets and changes nothing, and what is popped was the packet started last.
-/
theorem transmit_refines_queue {baud : UInt8} {edges : List Transition} {final : State}
    (run : UartRun baud edges final)
    (short : ∀ edge ∈ edges, ∀ data len, sendCall edge.event = some (data, len) →
      len.toNat ≤ 20) :
    (startedFrames edges ++ final.waiting = (acceptedPayloads edges).map frame ∧
      final.waiting.length ≤ 8) ∧
    (∀ edge ∈ edges, ∀ data len, sendCall edge.event = some (data, len) →
      ((ysUartSend edge.source.tx data len).2 = 0 ∨ (ysUartSend edge.source.tx data len).2 = -1) ∧
      ((ysUartSend edge.source.tx data len).2 = -1 ↔ edge.source.waiting.length = 8) ∧
      ((ysUartSend edge.source.tx data len).2 = -1 → edge.target = edge.source)) ∧
    ∀ before edge after now ret, edges = before ++ edge :: after → edge.event = .statement now →
      edge.source.pc = .txPop ret → ret = 1 ∧
        (startedFrames before).getLast? =
          some (frameAt edge.source.tx.cells (edge.source.tx.waitingSlot 0)) := by
  have transmitted := transmitted_run run
  have live := txLive_run run
  refine ⟨⟨?_, ?_⟩, ?_, ?_⟩
  · rw [transmitted.frames, acceptedPayloads, List.map_map]
    apply List.map_congr_left
    rintro ⟨data, len⟩ member
    obtain ⟨edge, inside, call⟩ := acceptedCall_mem member
    have bound := short edge inside data len call
    change frame (clamped data len) = frame (data.take len.toNat)
    rw [clamped, Nat.min_eq_left bound]
  · have bound := live.sound.backlog
    unfold State.waiting
    split
    · rw [List.length_tail, Tx.frames_length]
      omega
    · rw [Tx.frames_length]
      exact bound
  · intro edge member data len call
    obtain ⟨before, after, rfl⟩ := List.append_of_mem member
    obtain ⟨earlier, taken, _⟩ := run.split
    cases step_tx taken with
    | keep noCall fifo =>
        rw [noCall] at call
        cases call
    | send data' len' call' place enough result =>
        rw [call'] at call
        cases call
        obtain ⟨answers, exactly, unchanged⟩ := (txLive_run earlier).sound.send_result enough
        refine ⟨answers, ?_, fun refused => ?_⟩
        · rw [exactly, State.waiting_eq_frames (maySend_elsewhere place), Tx.frames_length]
        · rw [result, unchanged refused]
    | pop ret noCall pc result =>
        rw [noCall] at call
        cases call
  · rintro before edge after now ret rfl event pc
    obtain ⟨earlier, _, _⟩ := run.split
    exact ⟨((txLive_run earlier).popping pc).2, (transmitted_run earlier).popping ret pc⟩

/-- One pass of `ys_uart_process` that starts a waiting packet. -/
def transmission (start : Nat) : List Event :=
  .process :: (List.range 10).map fun index => .statement (start + index)

/-- Nine packets of two bytes are sent, eight of them accepted, and two started. -/
def nineSends : List Event :=
  (List.range 9).map (fun index => .send [UInt8.ofNat index, 7] 2) ++ transmission 10 ++
    [.irq none true 30] ++ transmission 40

/-- A call that a list of events makes is a call with two bytes. -/
theorem nineSends_short : ∀ event ∈ nineSends, ∀ data len, sendCall event = some (data, len) →
    len.toNat ≤ 20 := by
  intro event member data len call
  have listed : (data, len) ∈ nineSends.filterMap sendCall :=
    List.mem_filterMap.mpr ⟨event, member, call⟩
  have each : ∀ call ∈ nineSends.filterMap sendCall, call.2.toNat ≤ 20 := by decide
  exact each _ listed

set_option maxRecDepth 100000 in
theorem transmit_refines_queue_nineSends :
    ∃ edges final, edges.map Edge.event = nineSends ∧ UartRun 4 edges final ∧
      startedFrames edges = [[2, 0, 0, 0, 0, 7], [2, 0, 0, 0, 1, 7]] ∧
      final.waiting.length = 6 ∧
      startedFrames edges ++ final.waiting = (acceptedPayloads edges).map frame ∧
      ∃ edge ∈ edges, edge.event = .send [8, 7] 2 ∧
        (ysUartSend edge.source.tx [8, 7] 2).2 = -1 ∧ edge.target = edge.source := by
  obtain ⟨final, executed⟩ := Option.isSome_iff_exists.mp
    (show (follow step (ysUartInit powerOn 4) nineSends).isSome = true by decide +kernel)
  obtain ⟨labels, run⟩ := trace_run executed
  have started : startedFrames (trace step (ysUartInit powerOn 4) nineSends) =
      [[2, 0, 0, 0, 0, 7], [2, 0, 0, 0, 1, 7]] := by
    decide +kernel
  have left : (follow step (ysUartInit powerOn 4) nineSends).map (fun s => s.waiting.length) =
      some 6 := by
    decide +kernel
  have ninth : ((trace step (ysUartInit powerOn 4) nineSends).drop 8).head?.map
      (fun edge => (edge.source.waiting.length)) = some 8 := by
    decide +kernel
  obtain ⟨edge, named, full⟩ := Option.map_eq_some_iff.mp ninth
  have member := List.mem_of_mem_drop (List.mem_of_head? named)
  have event : edge.event = .send [8, 7] 2 := by
    have label := congrArg (fun events => (events.drop 8).head?) labels
    simp only [← List.map_drop, List.head?_map, named] at label
    exact Option.some.inj label
  rw [executed] at left
  have short : ∀ edge ∈ trace step (ysUartInit powerOn 4) nineSends, ∀ data len,
      sendCall edge.event = some (data, len) → len.toNat ≤ 20 := by
    intro edge inside
    refine nineSends_short edge.event ?_
    rw [← labels]
    exact List.mem_map_of_mem inside
  obtain ⟨⟨queue, _⟩, answers, _⟩ := transmit_refines_queue run short
  obtain ⟨_, exactly, unchanged⟩ := answers edge member [8, 7] 2 (by rw [event]; rfl)
  have refused := exactly.mpr full
  exact ⟨_, final, labels, run, started, Option.some.inj left, queue, edge, member, event, refused,
    unchanged refused⟩

/-! ## Writes from BLE -/

/--
A write has all its bytes queued behind the earlier ones, in one or more
packets, or it is answered with a failure and nothing is queued.  An empty write
is a packet too: on a full FIFO it queues none, is reported as done and counts
as lost.
-/
def WriteHonoured (edge : Transition) : Prop :=
  ∀ packet, edge.event = .attWrite packet →
    ((nusOnReceiveData edge.source.tx packet).2 = 0 ∧
      ∃ packets : List (List UInt8), packets ≠ [] ∧ packets.flatten = packet.value ∧
        edge.target.waiting = edge.source.waiting ++ packets.map frame) ∨
    ((nusOnReceiveData edge.source.tx packet).2 ≠ 0 ∧ edge.target.waiting = edge.source.waiting)

/-- A write has at most 20 bytes and finds room. -/
def WriteFits (edge : Transition) : Prop :=
  ∀ packet, edge.event = .attWrite packet →
    packet.value.length ≤ 20 ∧ edge.source.tx.backlog < 8

theorem frame_injective {first second : List UInt8} (same : frame first = frame second) :
    first = second :=
  List.append_inj_right same rfl

/-- What a write does to the waiting frames, with or without room. -/
theorem attWrite_waiting {source target : State} {packet : RfPacketAttWrite}
    (live : TxLive source) (taken : step source (.attWrite packet) = some target) :
    (source.tx.backlog < 8 → target.waiting =
      source.waiting ++
        [frame (clamped packet.value (UInt8.ofNat (packet.l2capLen.toNat - 3)))]) ∧
    (¬ source.tx.backlog < 8 → target.waiting = source.waiting) := by
  have call : sendCall (.attWrite packet) =
      some (packet.value, UInt8.ofNat (packet.l2capLen.toNat - 3)) := rfl
  have enough : (UInt8.ofNat (packet.l2capLen.toNat - 3)).toNat ≤ packet.value.length := by
    rw [packet.narrowed]
    exact Nat.mod_le _ _
  have accepted := @acceptedCall_some ⟨source, .attWrite packet, target⟩ _ _ call
  cases queue_step live taken with
  | keep unaccepted unstarted waiting =>
      refine ⟨fun room => ?_, fun _ => waiting⟩
      rw [unaccepted] at accepted
      dsimp only at accepted
      rw [ysUartSend_room room enough, if_pos rfl] at accepted
      cases accepted
  | accept data len shape unstarted waiting =>
      rw [shape] at accepted
      dsimp only at accepted
      refine ⟨fun room => ?_, fun full => ?_⟩
      · rw [ysUartSend_room room enough, if_pos rfl] at accepted
        cases accepted
        exact waiting
      · rw [ysUartSend_full _ _ full, if_neg minusOne_ne] at accepted
        cases accepted
  | start oldest unaccepted started waiting => cases started

theorem TxLive.honoured {source target : State} {event : Event} (live : TxLive source)
    (taken : step source event = some target) (fits : WriteFits ⟨source, event, target⟩) :
    WriteHonoured ⟨source, event, target⟩ := by
  rintro packet rfl
  obtain ⟨short, room⟩ := fits packet rfl
  have whole : clamped packet.value (UInt8.ofNat (packet.l2capLen.toNat - 3)) = packet.value := by
    rw [clamped, packet.narrowed]
    exact List.take_of_length_le (by omega)
  refine Or.inl ⟨rfl, [packet.value], List.cons_ne_nil _ _, List.flatten_singleton, ?_⟩
  have waiting := (attWrite_waiting live taken).1 room
  rw [whole] at waiting
  exact waiting

theorem TxLive.fits_of_honoured {source target : State} {event : Event} (live : TxLive source)
    (taken : step source event = some target) (honoured : WriteHonoured ⟨source, event, target⟩) :
    WriteFits ⟨source, event, target⟩ := by
  rintro packet rfl
  obtain ⟨withRoom, withoutRoom⟩ := attWrite_waiting live taken
  rcases honoured packet rfl with ⟨_, packets, filled, bytes, waiting⟩ | ⟨failed, _⟩
  · dsimp only at waiting
    by_cases room : source.tx.backlog < 8
    · refine ⟨?_, room⟩
      rw [withRoom room, List.append_cancel_left_eq] at waiting
      obtain ⟨payload, rfl, same⟩ := List.map_eq_singleton_iff.mp waiting.symm
      rw [List.flatten_singleton] at bytes
      have whole := frame_injective same
      rw [bytes, clamped, packet.narrowed] at whole
      have count := congrArg List.length whole
      rw [List.length_take] at count
      omega
    · rw [withoutRoom room, List.self_eq_append_right, List.map_eq_nil_iff] at waiting
      exact absurd waiting filled
  · exact absurd rfl failed

/--
No write is lost silently exactly in the runs in which every write has at most
20 bytes and finds fewer than 8 packets waiting.  What was queued is handed to
the DMA unchanged and in order.
-/
theorem writes_honoured_iff {baud : UInt8} {edges : List Transition} {final : State}
    (run : UartRun baud edges final) :
    ((∀ edge ∈ edges, WriteHonoured edge) ↔ ∀ edge ∈ edges, WriteFits edge) ∧
      startedFrames edges ++ final.waiting =
        (acceptedCalls edges).map fun call => frame (clamped call.1 call.2) := by
  refine ⟨?_, (transmitted_run run).frames⟩
  refine run.exact_condition (init_txLive baud) ?_ TxLive.honoured TxLive.fits_of_honoured
  exact fun live taken _ => txLive_step live taken

/-- A write of one byte. -/
def oneByteWrite : RfPacketAttWrite := ⟨4, [7], by decide⟩

/-- A write of three bytes. -/
def threeByteWrite : RfPacketAttWrite := ⟨6, [1, 2, 3], by decide⟩

/-- Two writes, each with a pass that starts it. -/
def twoWrites : List Event :=
  .attWrite oneByteWrite :: transmission 10 ++ [.irq none true 30] ++
    .attWrite threeByteWrite :: transmission 40

set_option maxRecDepth 100000 in
theorem writes_honoured_iff_twoWrites :
    ∃ edges final, edges.map Edge.event = twoWrites ∧ UartRun 4 edges final ∧
      (∀ edge ∈ edges, WriteHonoured edge) ∧
      startedFrames edges = [[1, 0, 0, 0, 7], [3, 0, 0, 0, 1, 2, 3]] ∧
      startedFrames edges ++ final.waiting =
        (acceptedCalls edges).map fun call => frame (clamped call.1 call.2) := by
  obtain ⟨final, labels, run⟩ := @enabled_run _ _ step (ysUartInit powerOn 4) twoWrites
    (by decide +kernel)
  have room : ∀ edge ∈ trace step (ysUartInit powerOn 4) twoWrites,
      edge.source.tx.backlog < 8 := by
    decide +kernel
  have started : startedFrames (trace step (ysUartInit powerOn 4) twoWrites) =
      [[1, 0, 0, 0, 7], [3, 0, 0, 0, 1, 2, 3]] := by
    decide +kernel
  obtain ⟨exactly, queue⟩ := writes_honoured_iff run
  refine ⟨_, final, labels, run, exactly.mpr fun edge member packet event => ?_, started, queue⟩
  have label : Event.attWrite packet ∈ twoWrites := by
    rw [← event, ← labels]
    exact List.mem_map_of_mem member
  refine ⟨?_, room edge member⟩
  simp [twoWrites, transmission] at label
  rcases label with rfl | rfl <;> decide

set_option maxRecDepth 100000 in
/-- Nine writes of one byte without a main-loop pass: the ninth is dropped and reported as done. -/
theorem write_dropped :
    ∃ edges final, edges.map Edge.event = List.replicate 9 (.attWrite oneByteWrite) ∧
      UartRun 4 edges final ∧ ¬ ∀ edge ∈ edges, WriteHonoured edge := by
  have computed : ((follow step (ysUartInit powerOn 4)
      (List.replicate 8 (.attWrite oneByteWrite))).bind fun s =>
        (step s (.attWrite oneByteWrite)).map fun t =>
          [s.waiting.length, t.waiting.length]) = some [8, 8] := by
    decide +kernel
  obtain ⟨edges, source, target, labels, run, member, facts⟩ := observed_run computed
  simp only [List.cons.injEq, and_true] at facts
  obtain ⟨before, after⟩ := facts
  refine ⟨edges, target, labels, run, fun honoured => ?_⟩
  rcases honoured _ member oneByteWrite rfl with ⟨_, packets, filled, _, waiting⟩ | ⟨failed, _⟩
  · have count := congrArg List.length waiting
    dsimp only at count
    rw [List.length_append, List.length_map, before, after] at count
    exact filled (List.length_eq_zero_iff.mp (by omega))
  · exact failed rfl

end Ser2Ble.YsUart
