import Ser2Ble.Ser2Hid.EchoRoom
import Ser2Ble.YsUart.Bursts
import Ser2Ble.YsUart.Overrun

/-!
# What the host sends and what it gets back

The bursts of the host, cut into chunks of 20 bytes, are what the handler pops,
and the frames among these are what it echoes.
-/

namespace Ser2Ble.Ser2Hid

open Library Proj YsUart

/-- The packet that the handler is done with and that is still to be popped. -/
def unpopped (s : HidState) (current : Option HandlerPass) : List (List UInt8) :=
  if s.uart.pc = .rxPop then current.toList.map Pass.header else []

theorem unpopped_of_ne {s : HidState} {current : Option HandlerPass} (elsewhere : s.uart.pc ≠ .rxPop) :
    unpopped s current = [] :=
  if_neg elsewhere

/-- What was popped and what is about to be is what the handler returned 0 for. -/
def Accounted (edges : List HidTransition) (s : HidState) : Prop :=
  (popped edges).map Pass.header ++ unpopped s (handlerLog edges).current =
    delivered (uartEdges edges)

/-- No packet is delivered along an edge that is not the return of the handler. -/
theorem delivered_same {edges : List HidTransition} {edge : HidTransition}
    (calls : (uartEdge edge).bind handlerCall = none) :
    delivered (uartEdges (edges ++ [edge])) = delivered (uartEdges edges) := by
  rw [uartEdges_last]
  cases shown : uartEdge edge with
  | none => simp
  | some edge =>
      rw [shown] at calls
      exact delivered_none _ calls

theorem popped_last (edges : List HidTransition) (edge : HidTransition)
    (unfinished : handlerEvent edge ≠ .finish) : popped (edges ++ [edge]) = popped edges := by
  rw [popped, handlerLog, passLog_last, popped, handlerLog]
  cases event : handlerEvent edge with
  | finish => exact absurd event unfinished
  | _ => rfl

/-- An edge of the handler before its return. -/
theorem Accounted.inside {edges : List HidTransition} {edge : HidTransition}
    (accounted : Accounted edges edge.source) (unfinished : handlerEvent edge ≠ .finish)
    (calls : (uartEdge edge).bind handlerCall = none) (before : edge.source.uart.pc ≠ .rxPop)
    (after : edge.target.uart.pc ≠ .rxPop) : Accounted (edges ++ [edge]) edge.target := by
  rw [Accounted, unpopped_of_ne before] at accounted
  rw [Accounted, delivered_same calls, popped_last edges edge unfinished, unpopped_of_ne after]
  exact accounted

/-- An edge that has nothing to do with the handler. -/
theorem Accounted.outside {edges : List HidTransition} {edge : HidTransition}
    (accounted : Accounted edges edge.source) (other : handlerEvent edge = .other)
    (calls : (uartEdge edge).bind handlerCall = none)
    (pc : edge.target.uart.pc = edge.source.uart.pc) : Accounted (edges ++ [edge]) edge.target := by
  have same : handlerLog (edges ++ [edge]) = handlerLog edges := by
    rw [handlerLog, passLog_last, other]
    rfl
  rw [Accounted, delivered_same calls, popped, same, unpopped, pc]
  exact accounted

theorem accounted_step {edges : List HidTransition} {source target : HidState} {event : HidEvent}
    (accounted : Accounted edges source) (tracked : Tracked source (handlerLog edges).current)
    (intact : Intact source (handlerLog edges).current)
    (taken : hidStep source event = some target) :
    Accounted (edges ++ [⟨source, event, target⟩]) target := by
  obtain ⟨calls, _, move⟩ := hidStep_move taken
  cases move with
  | irq byte txDone now => exact accounted.outside rfl rfl rfl
  | process place outside =>
      exact @Accounted.inside edges ⟨source, .process, _⟩ accounted (by simp [handlerEvent]) rfl
        (by simp [outside]) (by simp)
  | statement now uart place stepped =>
      obtain ⟨after, popping | ⟨elsewhere, noHandler⟩⟩ := statement_place stepped
      · obtain ⟨_, pass, some, _⟩ := tracked.popped popping
        have quiet : (uartEdge ⟨source, .statement now, { source with uart := uart }⟩).bind
            handlerCall = none := rfl
        rw [Accounted, unpopped, if_pos popping, some] at accounted
        rw [Accounted, delivered_same quiet, popped, handlerLog, passLog_last,
          handlerEvent_pop popping, unpopped_of_ne after, ← accounted]
        change (((handlerLog edges).finished ++ (handlerLog edges).current.toList).map _) ++ [] = _
        rw [some, List.append_nil, List.map_append]
        rfl
      · have other := @handlerEvent_statement source { source with uart := uart } elsewhere now
        refine @Accounted.inside edges ⟨source, .statement now, _⟩ accounted ?_ rfl elsewhere after
        rw [other]
        simp
  | check fp len pc handler =>
      refine @Accounted.inside edges ⟨source, .check, _⟩ accounted ?_ rfl ?_ ?_
      · rw [handlerEvent_check pc]
        simp
      · simp [pc]
      · simp [pc]
  | push connected accepted fp len call rest pc handler =>
      refine @Accounted.inside edges ⟨source, .push connected accepted, _⟩ accounted ?_ rfl ?_ ?_
      · rw [handlerEvent_push pc handler]
        simp
      · simp [pc]
      · simp [pc]
  | echo fp len pc handler =>
      refine @Accounted.inside edges ⟨source, .echo, _⟩ accounted ?_ ?_ ?_ ?_
      · rw [handlerEvent_echo pc]
        simp
      · rw [uartEdge, uartEvent_echo pc]
        rfl
      · simp [pc]
      · simp [pc]
  | handlerReturn fp len pc handler =>
      obtain ⟨pass, some, _⟩ := tracked.completed handler
      have header := intact pass fp len some pc
      have call := @handlerCall_returned source.uart { source.uart with pc := .rxPop } 0 fp len pc
      rw [Accounted, unpopped_of_ne (by simp [pc]), List.append_nil] at accounted
      rw [Accounted, uartEdges_last]
      change _ = delivered (uartEdges edges ++
        [⟨source.uart, .handlerReturn 0, { source.uart with pc := .rxPop }⟩])
      rw [delivered_some _ call, if_pos rfl, ← accounted, ← window_data, header,
        popped_last _ _ (by simp [handlerEvent]), unpopped, if_pos rfl, handlerLog, passLog_last]
      change _ ++ (handlerLog edges).current.toList.map _ = _
      rw [some]
      rfl
  | keyCheck now place outside =>
      refine @Accounted.outside edges ⟨source, .keyCheck now, _⟩ accounted rfl rfl ?_
      dsimp only
      rw [keyCheck_frame]
  | scan gpioRead now place =>
      refine @Accounted.outside edges ⟨source, .scan gpioRead now, _⟩ accounted rfl rfl ?_
      dsimp only
      rw [switchScan_frame]

section Runs

variable {gpioRead : UInt32} {edges : List HidTransition} {final : HidState}

theorem accounted_run (run : HidRun gpioRead edges final)
    (below : ∀ edge ∈ uartEdges edges, CommitsBelow edge) : Accounted edges final := by
  induction run with
  | refl =>
      have outside : (ser2hidInit gpioRead).uart.pc = .outside := init_pc _
      rw [Accounted, unpopped_of_ne (by simp [outside])]
      rfl
  | tail run taken ih =>
      have earlier := fun edge member => below edge (by
        rw [uartEdges_last]
        exact List.mem_append_left _ member)
      exact accounted_step (ih earlier) (logged_run run).tracked (intact_run run earlier) taken

/--
Below overrun and with room for every echo, the host gets back the frames among
the chunks of its bursts, each once, unchanged and in order; what is missing is
queued or under assembly.
-/
theorem host_frames_echoed (run : HidRun gpioRead edges final)
    (below : ∀ edge ∈ uartEdges edges, CommitsBelow edge)
    (increasing : Increasing (uartEdges edges))
    (room : ∀ edge ∈ edges, edge.event = .echo → edge.source.uart.tx.backlog < 8)
    (between : (handlerLog edges).current = none) :
    queuedPackets edges = (delivered (uartEdges edges)).filter isFrame ∧
      delivered (uartEdges edges) ++ final.uart.packets.queue =
        (burstsOf (uartEdges edges)).ended.flatMap (Chunks.all 20) ++
          Chunks.full 20 (burstsOf (uartEdges edges)).current := by
  have serial := hid_refines_uart run
  have echoed := (frames_echoed_iff_room run below).1 room
  have accounted := accounted_run run below
  constructor
  · have headers : (popped edges).map Pass.header = delivered (uartEdges edges) := by
      rw [Accounted, unpopped, between] at accounted
      simpa using accounted
    rw [FramesEchoed, pendingFrames, between] at echoed
    rw [echoed, ← headers, poppedFrames, List.filter_map]
    exact List.append_nil _
  · rw [(streamed_run serial below).committed]
    exact (framed_run serial increasing below).committed

end Runs

set_option maxRecDepth 100000 in
theorem host_frames_echoed_one :
    ∃ edges final, edges.map Edge.event = arrival 0 fullFrame ++ echoPass 30000 ∧
      HidRun 0x20 edges final ∧ queuedPackets edges = [fullFrame] ∧
      (burstsOf (uartEdges edges)).current = fullFrame := by
  obtain ⟨final, events, run⟩ := @enabled_run _ _ hidStep (ser2hidInit 0x20)
    (arrival 0 fullFrame ++ echoPass 30000) (by decide +kernel)
  generalize atBoot : trace hidStep (ser2hidInit 0x20) (arrival 0 fullFrame ++ echoPass 30000) =
    edges at events run
  obtain ⟨below, increasing, room, between⟩ : (∀ edge ∈ uartEdges edges, CommitsBelow edge) ∧
      Increasing (uartEdges edges) ∧ (∀ edge ∈ edges, edge.source.uart.tx.backlog < 8) ∧
      (handlerLog edges).current = none := by
    rw [← atBoot, Increasing]
    decide +kernel
  obtain ⟨handed, burst⟩ : delivered (uartEdges edges) = [fullFrame] ∧
      (burstsOf (uartEdges edges)).current = fullFrame := by
    rw [← atBoot]
    decide +kernel
  have echoed := (host_frames_echoed run below increasing
    (fun edge member _ => room edge member) between).1
  rw [handed] at echoed
  exact ⟨edges, final, events, run, echoed, burst⟩

/-! ## The pace of the main loop -/

/-- The handler of this firmware returns 0 always. -/
theorem uartEdges_accept {edges : List HidTransition} {shown : YsUart.Transition}
    (member : shown ∈ uartEdges edges) : refuses shown = false := by
  obtain ⟨⟨source, event, target⟩, -, seen⟩ := List.mem_filterMap.mp member
  rw [uartEdge] at seen
  cases event with
  | echo =>
      cases pc : source.uart.pc with
      | recvHandler fp len =>
          simp only [HidState.uartEvent, pc, Option.map_some, Option.some.injEq] at seen
          rw [← seen]
          rfl
      | _ => simp [HidState.uartEvent, pc] at seen
  | irq byte txDone now => cases seen; rfl
  | process => cases seen; rfl
  | statement now => cases seen; rfl
  | handlerReturn => cases seen; rfl
  | _ => cases seen

/--
A main loop that tests for an idle line within 19 character times never lets
more than three packets wait, and overwrites none.
-/
theorem pace_suffices {gpioRead : UInt32} {edges : List HidTransition} {final : HidState}
    {boot char : Nat} (run : HidRun gpioRead edges final) (positive : 0 < char)
    (spaced : Spaced boot char (uartEdges edges)) :
    final.uart.rx.backlog ≤ 3 ∧ ∀ edge ∈ uartEdges edges, CommitsBelow edge := by
  have inTime := inTime_of_spaced positive spaced
  have accepted : ∀ before, before <+: uartEdges edges → refusedSince before = 0 :=
    fun before part => refusedSince_eq_zero fun edge member => uartEdges_accept (part.subset member)
  have patient : Patient (uartEdges edges) := fun before part => by
    rw [accepted before part]
    exact Nat.succ_pos 59
  have few := backlog_le_refused (hid_refines_uart run) inTime
  rw [accepted _ (List.prefix_refl _)] at few
  exact ⟨few, commitsBelow_of_patient (hid_refines_uart run) inTime patient⟩

set_option maxRecDepth 100000 in
theorem pace_suffices_one :
    ∃ edges final, edges.map Edge.event = arrival 1000 fullFrame ++ echoPass 28000 ∧
      HidRun 0x20 edges final ∧ final.uart.rx.backlog ≤ 3 := by
  obtain ⟨final, events, run⟩ := @enabled_run _ _ hidStep (ser2hidInit 0x20)
    (arrival 1000 fullFrame ++ echoPass 28000) (by decide +kernel)
  have spaced := @spaced_of_inits 1000 1400
    (uartEdges (trace hidStep (ser2hidInit 0x20) (arrival 1000 fullFrame ++ echoPass 28000)))
    (by decide +kernel)
  exact ⟨_, final, events, run, (pace_suffices run (by decide) spaced).1⟩

end Ser2Ble.Ser2Hid
