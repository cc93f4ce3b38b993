import Ser2Ble.Ser2Hid.Passes

/-!
# The echo of a frame

The handler echoes a frame with `ys_uart_send` and drops the result, so a frame
whose echo finds `uart_tx_fifo` full is popped all the same.  The packets
queued are the frames popped exactly when every echo finds room and still
finds the frame that was tested.
-/

namespace Ser2Ble.Ser2Hid

open Library Proj YsUart

/-! ## Frames and echoes -/

/-- The packets that `ys_uart_send` put into `uart_tx_fifo`, in order. -/
def queuedPackets (edges : List HidTransition) : List (List UInt8) :=
  (acceptedCalls (uartEdges edges)).map fun call => clamped call.1 call.2

/-- The frames popped from `uart_rx_fifo`, in order. -/
def poppedFrames (edges : List HidTransition) : List (List UInt8) :=
  ((popped edges).filter fun pass => isFrame pass.header).map Pass.header

/-- What the echo of a pass put into `uart_tx_fifo`. -/
def queuedEcho (pass : HandlerPass) : Option (List UInt8) :=
  (echoesOf pass).head?.join

/-- The frame whose echo is queued and which is still to be popped. -/
def pendingFrames (edges : List HidTransition) : List (List UInt8) :=
  ((handlerLog edges).current.toList.filter fun pass => (queuedEcho pass).isSome).map Pass.header

/-- Each frame popped is echoed once, unchanged and in order, and nothing else is queued. -/
def FramesEchoed (edges : List HidTransition) : Prop :=
  queuedPackets edges = poppedFrames edges ++ pendingFrames edges

instance (edges : List HidTransition) : Decidable (FramesEchoed edges) :=
  inferInstanceAs (Decidable (_ = _))

/-- The echo finds room, and the frame that was tested in full. -/
def EchoFits (before : List HidTransition) (edge : HidTransition) : Prop :=
  edge.event = .echo → ∀ fp len pass, edge.source.uart.pc = .recvHandler fp len →
    (handlerLog before).current = some pass →
    edge.source.uart.tx.backlog < 8 ∧ len.toNat ≤ 20 ∧
      Cells.window (edge.source.data fp) 0 len.toNat = pass.header

/-! ## What is queued -/

def HandlerAct.queued : HandlerAct → Option (List UInt8)
  | .called _ => none
  | .echoed queued => queued

theorem queued_other {edge : HidTransition}
    (noEcho : ∀ fp len, edge.event = .echo → edge.source.uart.pc ≠ .recvHandler fp len) :
    (uartEdge edge).bind acceptedCall = none ∧
      (handlerEvent edge).acted.bind HandlerAct.queued = none := by
  obtain ⟨source, event, target⟩ := edge
  constructor
  · cases event with
    | echo =>
        have unnamed : source.uartEvent .echo = none := by
          unfold HidState.uartEvent
          dsimp only
          split
          · next fp len pc => exact absurd pc (noEcho fp len rfl)
          · rfl
        rw [uartEdge, unnamed]
        rfl
    | _ => rfl
  · unfold handlerEvent
    split
    · rfl
    · cases attempt ⟨source, event, target⟩ <;> rfl
    · next fp len echo pc => exact absurd pc (noEcho fp len echo)
    · rfl
    · rfl

theorem queued_eq (edge : HidTransition) :
    ((uartEdge edge).bind acceptedCall).map (fun call => clamped call.1 call.2) =
      (handlerEvent edge).acted.bind HandlerAct.queued := by
  by_cases echo : ∃ fp len, edge.event = .echo ∧ edge.source.uart.pc = .recvHandler fp len
  · obtain ⟨source, event, target⟩ := edge
    obtain ⟨fp, len, rfl, pc⟩ := echo
    rw [handlerEvent_echo pc, uartEdge, uartEvent_echo pc]
    simp only [Option.map_some, Option.bind_some, PassEvent.acted, HandlerAct.queued, echoResult,
      acceptedCall, sendCall]
    split <;> rfl
  · obtain ⟨uart, handler⟩ := @queued_other edge fun fp len event pc => echo ⟨fp, len, event, pc⟩
    rw [uart, handler]
    rfl

theorem queuedPackets_eq {edges : List HidTransition} (orderly : Orderly handlerEvent edges) :
    queuedPackets edges =
      (handlerLog edges).passes.flatMap fun pass => pass.acts.filterMap HandlerAct.queued := by
  calc queuedPackets edges
      = (edges.filterMap fun edge => (handlerEvent edge).acted).filterMap HandlerAct.queued := by
          rw [queuedPackets, acceptedCalls, uartEdges, List.filterMap_filterMap,
            List.filterMap_filterMap, List.map_filterMap]
          exact List.filterMap_congr fun edge _ => queued_eq edge
    _ = (handlerLog edges).acts.filterMap HandlerAct.queued := by
          rw [← passLog_acts orderly]
          rfl
    _ = (handlerLog edges).passes.flatMap fun pass => pass.acts.filterMap HandlerAct.queued := by
          rw [PassLog.acts, List.filterMap_flatMap]

/-- With at most one echo, a pass queues what its echo queues. -/
theorem queued_pass {pass : HandlerPass} (once : (echoesOf pass).length ≤ 1) :
    pass.acts.filterMap HandlerAct.queued = (queuedEcho pass).toList := by
  have shape : pass.acts.filterMap HandlerAct.queued = (echoesOf pass).filterMap id := by
    rw [echoesOf, List.filterMap_filterMap]
    refine List.filterMap_congr fun act _ => ?_
    cases act <;> rfl
  rw [shape, queuedEcho]
  cases echoes : echoesOf pass with
  | nil => rfl
  | cons first rest =>
      rw [echoes, List.length_cons] at once
      obtain rfl := List.length_eq_zero_iff.mp (Nat.le_zero.mp (Nat.le_of_succ_le_succ once))
      cases first <;> rfl

theorem echoResult_eq_some_iff {s : HidState} {fp : Nat} {len : UInt8} {packet : List UInt8}
    (length : packet.length = len.toNat) : echoResult s fp len = some packet ↔
      s.uart.tx.backlog < 8 ∧ len.toNat ≤ 20 ∧ Cells.window (s.data fp) 0 len.toNat = packet := by
  have enough := Nat.le_of_eq (Cells.window_length (s.data fp) 0 len.toNat).symm
  rw [echoResult]
  by_cases room : s.uart.tx.backlog < 8
  · rw [ysUartSend_room room enough, if_pos rfl, Option.some.injEq, and_iff_right room]
    constructor
    · rintro rfl
      rw [clamped_length enough] at length
      have short : len.toNat ≤ 20 := by omega
      refine ⟨short, ?_⟩
      rw [clamped, Nat.min_eq_left short, List.take_of_length_le (Nat.le_of_eq (by simp))]
    · rintro ⟨short, rfl⟩
      rw [clamped, Nat.min_eq_left short, List.take_of_length_le (Nat.le_of_eq length)]
  · rw [ysUartSend_full _ _ room, if_neg minusOne_ne]
    exact iff_of_false (Option.some_ne_none packet).symm fun both => room both.1

/-! ## Echoes that fit -/

/-- The echo of a pass queued its packet. -/
def EchoQueued (packet : List UInt8) (act : HandlerAct) : Prop :=
  ∀ queued, act = .echoed queued → queued = some packet

theorem acted_echo {edge : HidTransition} {queued : Option (List UInt8)}
    (acted : (handlerEvent edge).acted = some (.echoed queued)) :
    edge.event = .echo ∧ ∃ fp len, edge.source.uart.pc = .recvHandler fp len ∧
      queued = echoResult edge.source fp len := by
  unfold handlerEvent at acted
  split at acted
  · cases acted
  · cases made : attempt edge <;> rw [made] at acted <;> cases acted
  · next fp len event pc =>
      cases acted
      exact ⟨event, fp, len, pc, rfl⟩
  · cases acted
  · cases acted

section Echoes

variable {gpioRead : UInt32} {edges before : List HidTransition} {final : HidState}

/-- The packet of the open pass is as long as the handler was told. -/
theorem echo_length {source target : HidState} {fp : Nat} {len : UInt8} {pass : HandlerPass}
    (logged : Logged before source) (taken : hidStep source .echo = some target)
    (pc : source.uart.pc = .recvHandler fp len)
    (opened : (handlerLog before).current = some pass) : pass.header.length = len.toNat := by
  obtain ⟨calls, _, move⟩ := hidStep_move taken
  cases move with
  | echo _ _ _ handler =>
      obtain ⟨_, _, _, same, some, length, _⟩ := logged.tracked.underway handler
      rw [opened] at some
      rw [pc] at same
      cases some
      cases same
      exact length

theorem echoFits_iff {source target : HidState} {event : HidEvent}
    (logged : Logged before source) (taken : hidStep source event = some target) :
    EchoFits before ⟨source, event, target⟩ ↔ ∀ act pass,
      (handlerEvent ⟨source, event, target⟩).acted = some act →
      (handlerLog before).current = some pass → EchoQueued pass.header act := by
  constructor
  · rintro fits _ pass acted opened queued rfl
    obtain ⟨echo, fp, len, pc, rfl⟩ := acted_echo acted
    dsimp only at echo pc
    subst echo
    have length := echo_length logged taken pc opened
    exact (echoResult_eq_some_iff length).mpr (fits rfl fp len pass pc opened)
  · rintro queued echo fp len pass pc opened
    dsimp only at echo pc
    subst echo
    have length := echo_length logged taken pc opened
    have acted : (handlerEvent ⟨source, .echo, target⟩).acted =
        some (.echoed (echoResult source fp len)) := by
      rw [handlerEvent_echo pc]
      rfl
    exact (echoResult_eq_some_iff length).mp (queued _ pass acted opened _ rfl)

/-- Every echo fits exactly when every echo queued the packet of its pass. -/
theorem all_fit_iff (run : HidRun gpioRead edges final) :
    Throughout EchoFits edges ↔ (handlerLog edges).Fit EchoQueued := by
  rw [handlerLog, passLog_fit_iff (logged_run run).orderly]
  have same {before : List HidTransition} {edge : HidTransition} {rest : List HidTransition}
      (shape : edges = before ++ edge :: rest) := by
    rw [shape] at run
    obtain ⟨earlier, taken, _⟩ := run.split
    exact echoFits_iff (logged_run earlier) taken
  constructor
  · exact fun fits before edge rest shape => (same shape).mp (fits before edge rest shape)
  · exact fun fits before edge rest shape => (same shape).mpr (fits before edge rest shape)

theorem Logged.once (logged : Logged edges final) :
    ∀ pass ∈ (handlerLog edges).passes, (echoesOf pass).length ≤ 1 := by
  intro pass member
  have complete {pass : HandlerPass} (complete : Complete pass) : (echoesOf pass).length ≤ 1 := by
    rw [complete.echoes]
    split <;> decide
  rcases List.mem_append.mp member with finished | opened
  · exact complete (logged.complete pass finished)
  · have current := Option.mem_toList.mp opened
    cases logged.tracked with
    | away pc tests none =>
        rw [none] at current
        cases current
    | helpers fp len rest other pc going some length underway =>
        rw [some] at current
        cases current
        rw [underway.echoes]
        decide
    | done fp len other pc done some done' =>
        rw [some] at current
        cases current
        exact complete done'
    | popping other pc tests some done =>
        rw [some] at current
        cases current
        exact complete done

theorem queuedPackets_split (logged : Logged edges final) :
    queuedPackets edges = (popped edges).filterMap queuedEcho ++
      (handlerLog edges).current.toList.filterMap queuedEcho := by
  rw [← List.filterMap_append, queuedPackets_eq logged.orderly]
  change _ = (handlerLog edges).passes.filterMap queuedEcho
  rw [List.filterMap_eq_flatMap_toList]
  exact List.flatMap_congr fun pass member => queued_pass (logged.once pass member)

/-- A popped frame has made one echo, and any other packet none. -/
theorem Complete.echo {pass : HandlerPass} (complete : Complete pass) :
    if isFrame pass.header then ∃ queued, echoesOf pass = [queued] else echoesOf pass = [] := by
  have count := complete.echoes
  split
  · next framed =>
      rw [if_pos framed] at count
      exact List.length_eq_one_iff.mp count
  · next unframed =>
      rw [if_neg unframed] at count
      exact List.length_eq_zero_iff.mp count

theorem Complete.queuedEcho_none {pass : HandlerPass} (complete : Complete pass)
    (queued : queuedEcho pass ≠ none) : isFrame pass.header = true := by
  by_contra unframed
  have echo := complete.echo
  rw [if_neg unframed] at echo
  rw [queuedEcho, echo] at queued
  exact queued rfl

/-- What a pass queued is what one of its echoes queued. -/
theorem queuedEcho_mem {pass : HandlerPass} {payload : List UInt8}
    (queued : queuedEcho pass = some payload) : .echoed (some payload) ∈ pass.acts := by
  have first := Option.join_eq_some_iff.mp queued
  obtain ⟨act, member, shown⟩ := List.mem_filterMap.mp (List.mem_of_head? first)
  cases act with
  | called made => cases shown
  | echoed other =>
      cases shown
      exact member

/-- A popped frame queued itself exactly when its echoes did. -/
theorem Complete.queued_iff {pass : HandlerPass} (complete : Complete pass) :
    (isFrame pass.header = true → queuedEcho pass = some pass.header) ↔
      ∀ act ∈ pass.acts, EchoQueued pass.header act := by
  have member (act : HandlerAct) (queued : Option (List UInt8)) (inside : act ∈ pass.acts)
      (same : act = .echoed queued) : queued ∈ echoesOf pass :=
    List.mem_filterMap.mpr ⟨act, inside, by rw [same]; rfl⟩
  have echo := complete.echo
  by_cases framed : isFrame pass.header = true
  · rw [if_pos framed] at echo
    obtain ⟨only, shape⟩ := echo
    constructor
    · intro own act inside queued same
      have among := member act queued inside same
      rw [shape, List.mem_singleton] at among
      have shown := own framed
      rw [queuedEcho, shape] at shown
      rw [among]
      exact Option.join_eq_some_iff.mp shown |> Option.some.inj
    · intro fits _
      have among : only ∈ echoesOf pass := by
        rw [shape]
        exact List.mem_singleton_self only
      obtain ⟨act, inside, shown⟩ := List.mem_filterMap.mp among
      cases act with
      | called made => cases shown
      | echoed queued =>
          cases shown
          rw [queuedEcho, shape, fits _ inside _ rfl]
          rfl
  · rw [if_neg framed] at echo
    refine iff_of_true (fun impossible => absurd impossible framed) fun act inside queued same => ?_
    have among := member act queued inside same
    rw [echo] at among
    cases among

/-- The popped part of the queued packets, on its own. -/
theorem popped_echoed_iff (logged : Logged edges final) :
    (popped edges).filterMap queuedEcho = poppedFrames edges ↔
      ∀ pass ∈ popped edges, ∀ act ∈ pass.acts, EchoQueued pass.header act := by
  have only (pass : HandlerPass) (member : pass ∈ popped edges) (queued : queuedEcho pass ≠ none) :
      isFrame pass.header = true :=
    (logged.complete pass member).queuedEcho_none queued
  rw [poppedFrames, shown_eq_wanted_iff only]
  constructor
  · exact fun own pass member => (logged.complete pass member).queued_iff.mp (own pass member)
  · exact fun fits pass member => (logged.complete pass member).queued_iff.mpr (fits pass member)

/-- The packets queued are the frames popped while every echo fits. -/
theorem framesEchoed_of_fits (run : HidRun gpioRead edges final)
    (fits : Throughout EchoFits edges) : FramesEchoed edges := by
  have logged := logged_run run
  rw [all_fit_iff run] at fits
  have finished := (popped_echoed_iff logged).mpr fun pass member =>
    fits pass (List.mem_append_left _ member)
  rw [FramesEchoed, queuedPackets_split logged, pendingFrames, finished]
  congr 1
  cases opened : (handlerLog edges).current with
  | none => rfl
  | some pass =>
      cases queued : queuedEcho pass with
      | none => simp [queued]
      | some payload =>
          have member : pass ∈ (handlerLog edges).passes := by
            rw [PassLog.passes, opened]
            exact List.mem_concat_self
          have own := fits pass member _ (queuedEcho_mem queued) _ rfl
          simp [queued, Option.some.inj own]

/-- Between packets they are only then. -/
theorem fits_of_framesEchoed (run : HidRun gpioRead edges final)
    (between : (handlerLog edges).current = none) (echoed : FramesEchoed edges) :
    Throughout EchoFits edges := by
  have logged := logged_run run
  rw [FramesEchoed, queuedPackets_split logged, pendingFrames, between] at echoed
  change _ ++ [] = _ ++ [] at echoed
  rw [List.append_nil, List.append_nil, popped_echoed_iff logged] at echoed
  rw [all_fit_iff run]
  intro pass member
  rw [PassLog.passes, between, Option.toList_none, List.append_nil] at member
  exact echoed pass member

/--
If every echo finds room and the frame that was tested, the packets queued are
the frames popped; and between packets they are only then.
-/
theorem frames_echoed_iff (run : HidRun gpioRead edges final) :
    (Throughout EchoFits edges → FramesEchoed edges) ∧
      ((handlerLog edges).current = none → (FramesEchoed edges ↔ Throughout EchoFits edges)) :=
  ⟨framesEchoed_of_fits run, fun between =>
    ⟨fits_of_framesEchoed run between, framesEchoed_of_fits run⟩⟩

end Echoes

/-- A frame of twenty bytes with an unknown command. -/
def fullFrame : List UInt8 := [0xA5, 0, 16] ++ List.replicate 17 0

/-- A pass of the main loop handles and pops a frame. -/
def echoPass (now : Nat) : List HidEvent :=
  .process :: List.replicate 3 (.statement now) ++
    [.check, .echo, .handlerReturn, .statement now]

/-- A short frame with an unknown command. -/
def shortFrame : List UInt8 := [0xA5, 0x75, 1, 9, 0]

/-- A full frame and a short one, which the gap after it closes, each with its pass. -/
def twoFrames : List HidEvent :=
  arrival 0 (fullFrame ++ shortFrame) ++ echoPass 30000 ++ restOfPass 30000 8 ++ echoPass 60000

set_option maxRecDepth 100000 in
theorem frames_echoed_iff_twoFrames :
    ∃ edges final, edges.map Edge.event = twoFrames ∧ HidRun 0x20 edges final ∧
      poppedFrames edges = [fullFrame, shortFrame] ∧ FramesEchoed edges ∧
      Throughout EchoFits edges := by
  obtain ⟨final, events, run⟩ := @enabled_run _ _ hidStep (ser2hidInit 0x20) twoFrames
    (by decide +kernel)
  refine ⟨_, final, events, run, by decide +kernel, by decide +kernel, ?_⟩
  exact ((frames_echoed_iff run).2 (by decide +kernel)).mp (by decide +kernel)

/-- Ten frames arrive during a stall; nine passes of the main loop follow, and most of a tenth. -/
def stalledFrames : List HidEvent :=
  arrival 0 (List.replicate 10 fullFrame).flatten ++
    echoPass 280000 ++ restOfPass 280000 8 ++
    (List.replicate 8 (echoPass 281000 ++ restOfPass 281000 2)).flatten ++ echoPass 281000

set_option maxRecDepth 100000 in
theorem echo_dropped :
    ∃ edges final, edges.map Edge.event = stalledFrames ∧ HidRun 0x20 edges final ∧
      (poppedFrames edges).length = 10 ∧ (queuedPackets edges).length = 9 ∧
      ¬ FramesEchoed edges := by
  obtain ⟨final, events, run⟩ := @enabled_run _ _ hidStep (ser2hidInit 0x20) stalledFrames
    (by decide +kernel)
  have frames : (poppedFrames (trace hidStep (ser2hidInit 0x20) stalledFrames)).length = 10 := by
    decide +kernel
  have echoes : (queuedPackets (trace hidStep (ser2hidInit 0x20) stalledFrames)).length = 9 := by
    decide +kernel
  refine ⟨_, final, events, run, frames, echoes, fun echoed => ?_⟩
  have lengths := congrArg List.length echoed
  rw [List.length_append, frames, echoes] at lengths
  omega

end Ser2Ble.Ser2Hid
