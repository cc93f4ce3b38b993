import Ser2Ble.App.Bridge
import Ser2Ble.YsUart.ReceiveProgress

/-!
# From the serial line to the BLE client

Every packet of the serial line meets one fate: the stack accepts it, the link
goes down under it, or it is read as a command.  A packet that the stack refuses
is presented again until one of these happens, so along a run nothing is lost in
silence, repeated or overtaken.
-/

namespace Ser2Ble.App

open Library Proj YsUart

/-! ## While the handler runs -/

/-- The packet at the handler. -/
def BridgeState.packet (s : BridgeState) (fp : Nat) (len : UInt8) : List UInt8 :=
  Cells.window (s.data fp) 0 len.toNat

theorem BridgeState.packet_eq (s : BridgeState) (fp : Nat) (len : UInt8) :
    s.packet fp len = Cells.window s.app.uart.rx.cells (fp + 2) len.toNat := by
  refine List.map_congr_left fun offset _ => ?_
  rw [BridgeState.data, Nat.zero_add]

/-- The handler is entered at its first statement. -/
def Entered (s : BridgeState) : Prop :=
  s.handler ≠ .gapConnected → ∃ fp len, s.app.uart.pc = .recvHandler fp len

/-- While the handler runs, the rest of the device only receives. -/
theorem appStep_handler {source target : AppState} {event : AppEvent} (parked : Parked source)
    (own : event.ofHandler = false) (taken : appStep source event = some target) {fp : Nat}
    {len : UInt8} (pc : source.uart.pc = .recvHandler fp len) :
    ∃ byte txDone now, event = .irq byte txDone now ∧
      target.uart = ysUartIrqHandler source.uart byte txDone now := by
  have inside : source.place = .process := by
    by_contra elsewhere
    have outside := parked elsewhere
    rw [pc] at outside
    cases outside
  obtain ⟨call, _, move⟩ := appStep_move taken
  cases move with
  | command packet place => simp [inside] at place
  | keyCheck now place outside => simp [pc] at outside
  | scan gpioRead now place => simp [inside] at place
  | uart place named stepped away =>
      cases event with
      | irq byte txDone now =>
          cases named
          cases stepped
          exact ⟨byte, txDone, now, rfl, rfl⟩
      | write packet =>
          cases named
          simp [YsUart.step, pc] at stepped
      | process =>
          cases named
          simp [YsUart.step, pc] at stepped
      | statement now =>
          cases named
          simp [YsUart.step, statement, pc] at stepped
      | send data length => cases own
      | handlerReturn ret => cases own
      | command | keyCheck | scan => cases named

theorem entered_step {source target : BridgeState} {event : BridgeEvent}
    (parked : Parked source.app) (entered : Entered source)
    (taken : bridgeStep source event = some target) : Entered target := by
  obtain ⟨calls, _, move⟩ := bridgeStep_move taken
  cases move with
  | device event app own stepped =>
      intro running
      obtain ⟨fp, len, pc⟩ := entered running
      obtain ⟨byte, txDone, now, _, same⟩ := appStep_handler parked own stepped pc
      exact ⟨fp, len, (congrArg YsUart.State.pc same).trans pc⟩
  | gpio packet behind place => exact entered
  | gapConnected connected fp len pc => exact fun _ => ⟨fp, len, pc⟩
  | nusSendData connected status fp len pc => exact fun _ => ⟨fp, len, pc⟩
  | atProcess fp len pc => exact fun _ => ⟨fp, len, pc⟩
  | answer sertxBuf sertxIdx app handler stepped =>
      obtain ⟨fp, len, pc⟩ := entered (by simp [handler])
      obtain ⟨call, _, move⟩ := appStep_move stepped
      cases move with
      | uart place named moved away =>
          cases named
          obtain ⟨_, same⟩ := Option.ite_none_right_eq_some.mp moved
          cases same
          exact fun _ => ⟨fp, len, pc⟩
  | handlerReturn ret app handler stepped => exact fun running => absurd rfl running

theorem entered_run {flash : Nat → UInt8} {rand : Nat → UInt16} {gpioRead : UInt32}
    {edges : List BridgeTransition} {final : BridgeState}
    (run : BridgeRun flash rand gpioRead edges final) : Entered final := by
  induction run with
  | refl => exact fun running => absurd rfl running
  | tail run taken ih => exact entered_step (bridge_refines_uart run).1 ih taken

/-! ## Fates -/

/-- What becomes of a packet in one call of the handler. -/
inductive Fate where
  /-- the stack has taken it for a notification -/
  | notified
  /-- the stack has no room; it is presented again -/
  | refused (status : UInt8)
  /-- the link went down between the two tests; it is dropped -/
  | linkLost
  /-- it went to `ser2ble_at_process` -/
  | command
  deriving DecidableEq, Repr

/-- What the handler returns for a packet of this fate. -/
def Fate.ret : Fate → Int
  | .refused status => status.toNat
  | _ => 0

/-- The fate of a notification. -/
def pushFate (connected : Bool) (status : UInt8) : Fate :=
  if connected then if status = 0 then .notified else .refused status else .linkLost

/-- The fate that an edge decides, with the bytes it decides on. -/
def fate (edge : BridgeTransition) : Option (List UInt8 × Fate) :=
  match edge.event, edge.source.app.uart.pc with
  | .nusSendData connected status, .recvHandler fp len =>
      some (edge.source.packet fp len, pushFate connected status)
  | .atProcess, .recvHandler fp len => some (edge.source.packet fp len, .command)
  | _, _ => none

def fates (edges : List BridgeTransition) : List (List UInt8 × Fate) :=
  edges.filterMap fate

/-- The handler call that a fate amounts to. -/
def handlerResult (met : List UInt8 × Fate) : List UInt8 × Int :=
  (met.1, met.2.ret)

/-- The call that the handler will return from, once its packet has met its fate. -/
def BridgeState.returning (s : BridgeState) : Option (List UInt8 × Int) :=
  match s.app.uart.pc, s.handler with
  | .recvHandler fp len, .answer _ _ => some (s.packet fp len, 0)
  | .recvHandler fp len, .done ret => some (s.packet fp len, ret)
  | _, _ => none

theorem pushFate_ret (connected : Bool) (status : UInt8) (data : List UInt8) :
    (pushFate connected status).ret = (bleNusSendData connected status data).2 := by
  rcases connected with _ | _
  · rfl
  · by_cases accepted : status = 0
    · subst accepted
      rfl
    · simp [pushFate, accepted, bleNusSendData, Fate.ret]

theorem fate_other {edge : BridgeTransition} (quiet : ∀ connected status,
    edge.event ≠ .nusSendData connected status) (noTest : edge.event ≠ .atProcess) :
    fate edge = none := by
  unfold fate
  split
  · next connected status fp len event pc => exact absurd event (quiet connected status)
  · next fp len event pc => exact absurd event noTest
  · rfl

theorem returning_done {s : BridgeState} {fp : Nat} {len : UInt8} {ret : Int}
    (pc : s.app.uart.pc = .recvHandler fp len) (handler : s.handler = .done ret) :
    s.returning = some (s.packet fp len, ret) := by
  simp only [BridgeState.returning, pc, handler]

theorem returning_answer {s : BridgeState} {fp : Nat} {len : UInt8} {sertxBuf : List UInt8}
    {sertxIdx : UInt8} (pc : s.app.uart.pc = .recvHandler fp len)
    (handler : s.handler = .answer sertxBuf sertxIdx) :
    s.returning = some (s.packet fp len, 0) := by
  simp only [BridgeState.returning, pc, handler]

/-- Before its decisions the handler returns from nothing. -/
theorem returning_none {s : BridgeState} (noAnswer : ∀ sertxBuf sertxIdx,
    s.handler ≠ .answer sertxBuf sertxIdx) (notDone : ∀ ret, s.handler ≠ .done ret) :
    s.returning = none := by
  unfold BridgeState.returning
  split
  · next handler => exact absurd handler (noAnswer _ _)
  · next ret _ handler => exact absurd handler (notDone ret)
  · rfl

/-! ## One edge -/

/-- The handler call that returns along an edge. -/
def returned (edge : BridgeTransition) : Option (List UInt8 × Int) :=
  ((appEdge edge).bind uartEdge).bind handlerCall

/-- Only the return of the handler completes a call of it. -/
theorem returned_none {edge : BridgeTransition}
    (other : ∀ ret, edge.source.appEvent edge.event ≠ some (.handlerReturn ret)) :
    returned edge = none := by
  rw [returned, appEdge]
  cases named : edge.source.appEvent edge.event with
  | none => rfl
  | some event =>
      rw [Option.map_some, Option.bind_some, uartEdge]
      cases event with
      | handlerReturn ret => exact absurd named (other ret)
      | irq | write | process | statement | send => rfl
      | command | keyCheck | scan =>
          cases setBaudCall (⟨edge.source.app, _, edge.target.app⟩ : AppTransition) <;> rfl

/-- The packet at the handler stays what it is. -/
theorem packet_kept {source target : BridgeState} (streaming : Streaming source.app.uart)
    {event : YsUart.Event} (taken : YsUart.step source.app.uart event = some target.app.uart)
    (good : CommitsBelow ⟨source.app.uart, event, target.app.uart⟩) {fp : Nat} {len : UInt8}
    (pc : source.app.uart.pc = .recvHandler fp len) :
    target.packet fp len = source.packet fp len := by
  rw [BridgeState.packet_eq, BridgeState.packet_eq]
  exact streaming.presented_kept taken good pc

theorem returning_device {source : BridgeState} {event : AppEvent} {app : AppState}
    (parked : Parked source.app) (entered : Entered source)
    (streaming : Streaming source.app.uart)
    (good : ∀ edge, ((appEdge ⟨source, .device event, { source with app := app }⟩).bind
      uartEdge) = some edge → CommitsBelow edge)
    (own : event.ofHandler = false) (taken : appStep source.app event = some app) :
    BridgeState.returning { source with app := app } = source.returning := by
  by_cases running : source.handler = .gapConnected
  · have quiet : ∀ s : BridgeState, s.handler = .gapConnected → s.returning = none := by
      intro s handler
      refine returning_none ?_ ?_ <;> simp [handler]
    rw [quiet source running]
    exact quiet _ running
  · obtain ⟨fp, len, pc⟩ := entered running
    obtain ⟨byte, txDone, now, rfl, same⟩ := appStep_handler parked own taken pc
    have stepped : YsUart.step source.app.uart (.irq byte txDone now) = some app.uart := by
      rw [same]
      rfl
    have below := good ⟨source.app.uart, .irq byte txDone now, app.uart⟩ rfl
    have stays : app.uart.pc = .recvHandler fp len := (congrArg YsUart.State.pc same).trans pc
    have kept := @packet_kept source { source with app := app } streaming _ stepped below fp len pc
    unfold BridgeState.returning
    dsimp only
    rw [stays, pc]
    rcases handler : source.handler with _ | _ | _ | _ | ret
    · rfl
    · rfl
    · rfl
    · exact congrArg (fun packet => some (packet, (0 : Int))) kept
    · exact congrArg (fun packet => some (packet, ret)) kept

/-- What the handler decided and has not returned, and what it decides, it returns or has still to. -/
theorem fate_step {source target : BridgeState} {event : BridgeEvent} (parked : Parked source.app)
    (entered : Entered source) (streaming : Streaming source.app.uart)
    (good : ∀ edge, (appEdge ⟨source, event, target⟩).bind uartEdge = some edge →
      CommitsBelow edge)
    (taken : bridgeStep source event = some target) :
    source.returning.toList ++ ((fate ⟨source, event, target⟩).map handlerResult).toList =
      (returned ⟨source, event, target⟩).toList ++ target.returning.toList := by
  obtain ⟨calls, _, move⟩ := bridgeStep_move taken
  cases move with
  | device event app own stepped =>
      have quiet : returned ⟨source, .device event, { source with app := app }⟩ = none := by
        refine returned_none fun ret => ?_
        rw [appEvent_device source own, ne_eq, Option.some.injEq]
        rintro rfl
        cases own
      rw [quiet, returning_device parked entered streaming good own stepped, fate_other] <;> simp
  | gpio packet behind place =>
      have same : (bleNusGpioHandler source (packet.firstByte behind)).returning =
          source.returning := rfl
      rw [same, fate_other, returned_none] <;> simp [BridgeState.appEvent]
  | gapConnected connected fp len pc handler =>
      have before : source.returning = none := by
        refine returning_none ?_ ?_ <;> simp [handler]
      rw [before, fate_other, returned_none, returning_none] <;>
        cases connected <;> simp [BridgeState.appEvent]
  | nusSendData connected status fp len pc handler =>
      have before : source.returning = none := by
        refine returning_none ?_ ?_ <;> simp [handler]
      have decided : fate ⟨source, .nusSendData connected status, { source with
          handler := .done (bleNusSendData connected status (source.packet fp len)).2 }⟩ =
          some (source.packet fp len, pushFate connected status) := by
        simp only [fate, pc]
      change source.returning.toList ++ ((fate ⟨source, .nusSendData connected status, { source with
        handler := .done (bleNusSendData connected status (source.packet fp len)).2 }⟩).map
        handlerResult).toList = _
      rw [before, decided, returned_none (by simp [BridgeState.appEvent]),
        returning_done (by exact pc) rfl, Option.map_some, handlerResult,
        pushFate_ret connected status (source.packet fp len)]
      rfl
  | atProcess fp len pc handler =>
      have before : source.returning = none := by
        refine returning_none ?_ ?_ <;> simp [handler]
      have decided : fate ⟨source, .atProcess, { source with
          handler := afterAtProcess (ser2bleAtProcess (source.data fp) len) }⟩ =
          some (source.packet fp len, .command) := by
        simp only [fate, pc]
      have after : BridgeState.returning { source with
          handler := afterAtProcess (ser2bleAtProcess (source.data fp) len) } =
          some (source.packet fp len, 0) := by
        rw [afterAtProcess_eq]
        split
        · exact returning_answer pc rfl
        · exact returning_done pc rfl
      rw [before, decided, returned_none (by simp [BridgeState.appEvent]), after]
      rfl
  | answer sertxBuf sertxIdx app handler stepped =>
      obtain ⟨fp, len, pc⟩ := entered (by simp [handler])
      have quiet : returned ⟨source, .answer, { source with app := app, handler := .done 0 }⟩ =
          none := by
        refine returned_none fun ret => ?_
        rw [appEvent_answer handler, ne_eq, Option.some.injEq]
        intro same
        cases same
      obtain ⟨call, _, move⟩ := appStep_move stepped
      cases move with
      | uart place named moved away =>
          cases named
          obtain ⟨_, same⟩ := Option.ite_none_right_eq_some.mp moved
          cases same
          rw [quiet, fate_other (by simp) (by simp), returning_answer pc handler,
            returning_done (by exact pc) rfl]
          rfl
  | handlerReturn ret app handler stepped =>
      obtain ⟨fp, len, pc⟩ := entered (by simp [handler])
      have call : returned ⟨source, .handlerReturn,
          { source with app := app, handler := .gapConnected }⟩ =
          some (source.packet fp len, ret) := by
        rw [returned, appEdge_some (appEvent_handlerReturn handler), Option.bind_some]
        change handlerCall ⟨source.app.uart, .handlerReturn ret, app.uart⟩ = _
        rw [handlerCall_returned pc, BridgeState.packet_eq]
      have after : BridgeState.returning { source with app := app, handler := .gapConnected } =
          none := by
        refine returning_none ?_ ?_ <;> simp
      rw [call, after, fate_other (by simp) (by simp), returning_done pc handler]
      rfl

/-! ## Whole runs -/

/-- The packet is done with: the handler returns 0 for it. -/
def Fate.settles : Fate → Bool
  | .refused _ => false
  | _ => true

/-- The packets that are done with, in order. -/
def settled (edges : List BridgeTransition) : List (List UInt8) :=
  (fates edges).filterMap fun met => if met.2.settles then some met.1 else none

/-- The committed packets whose fate is still open. -/
def BridgeState.unsettled (s : BridgeState) : List (List UInt8) :=
  match s.returning with
  | some (_, ret) => if ret = 0 then s.app.uart.packets.queue.tail else s.app.uart.packets.queue
  | none => s.app.uart.packets.queue

theorem pushFate_settles (connected : Bool) (status : UInt8) :
    (pushFate connected status).settles = decide ((pushFate connected status).ret = 0) := by
  rcases connected with _ | _
  · rfl
  · by_cases accepted : status = 0
    · subst accepted
      rfl
    · have nonzero : status.toNat ≠ 0 := by simpa [← UInt8.toNat_inj] using accepted
      simp [pushFate, accepted, Fate.settles, Fate.ret, nonzero]

theorem fate_settles {edge : BridgeTransition} {met : List UInt8 × Fate}
    (decided : fate edge = some met) : met.2.settles = decide (met.2.ret = 0) := by
  unfold fate at decided
  split at decided
  · next connected status fp len event pc =>
      cases decided
      exact pushFate_settles connected status
  · cases decided
    rfl
  · cases decided

theorem returning_some {s : BridgeState} {call : List UInt8 × Int}
    (returning : s.returning = some call) :
    ∃ fp len, s.app.uart.pc = .recvHandler fp len ∧ call.1 = s.packet fp len := by
  unfold BridgeState.returning at returning
  split at returning
  · next fp len sertxBuf sertxIdx pc handler =>
      cases returning
      exact ⟨fp, len, pc, rfl⟩
  · next fp len ret pc handler =>
      cases returning
      exact ⟨fp, len, pc, rfl⟩
  · cases returning

/-- The call still to return from is about the oldest packet. -/
theorem returning_oldest {s : BridgeState} (streaming : Streaming s.app.uart)
    {call : List UInt8 × Int} (returning : s.returning = some call) :
    ∃ rest, s.app.uart.packets.queue = call.1 :: rest := by
  obtain ⟨fp, len, pc, same⟩ := returning_some returning
  rw [same, BridgeState.packet_eq]
  exact streaming.presented pc

section Runs

variable {flash : Nat → UInt8} {rand : Nat → UInt16} {gpioRead : UInt32}
  {edges : List BridgeTransition} {final : BridgeState}

theorem bridge_streaming (run : BridgeRun flash rand gpioRead edges final)
    (below : ∀ edge ∈ serialEdges edges, CommitsBelow edge) : Streaming final.app.uart :=
  (bridge_refines_uart run).2.preserves (init_streaming _) streaming_step below

/-- The fates of a run are the handler calls of the UART module, and the one under way. -/
theorem fates_run (run : BridgeRun flash rand gpioRead edges final)
    (below : ∀ edge ∈ serialEdges edges, CommitsBelow edge) :
    (fates edges).map handlerResult =
      handlerCalls (serialEdges edges) ++ final.returning.toList := by
  induction run with
  | refl =>
      have quiet : (bridgeInit flash rand gpioRead).returning = none := by
        refine returning_none ?_ ?_ <;> simp [bridgeInit]
      rw [quiet]
      rfl
  | @tail edges source target event run taken ih =>
      rw [serialEdges_last] at below
      have earlier := fun edge member => below edge (List.mem_append_left _ member)
      have own : ∀ edge, (appEdge ⟨source, event, target⟩).bind uartEdge = some edge →
          CommitsBelow edge := fun edge shown =>
        below edge (List.mem_append_right _ (Option.mem_toList.mpr shown))
      have conserved := fate_step (bridge_refines_uart run).1 (entered_run run)
        (bridge_streaming run earlier) own taken
      have grown : (fates (edges ++ [⟨source, event, target⟩])).map handlerResult =
          (fates edges).map handlerResult ++
            ((fate ⟨source, event, target⟩).map handlerResult).toList := by
        rw [fates, filterMap_last, List.map_append, fates]
        cases fate ⟨source, event, target⟩ <;> rfl
      have calls : handlerCalls (serialEdges (edges ++ [⟨source, event, target⟩])) =
          handlerCalls (serialEdges edges) ++ (returned ⟨source, event, target⟩).toList := by
        rw [serialEdges_last, handlerCalls, List.filterMap_append, handlerCalls, returned]
        cases (appEdge ⟨source, event, target⟩).bind uartEdge with
        | none => rfl
        | some edge => cases shown : handlerCall edge <;> simp [shown]
      rw [grown, ih earlier, List.append_assoc, conserved, ← List.append_assoc, ← calls]

/-- The packets done with are the packets for which the handler returned 0, and the one it will. -/
theorem settled_eq (run : BridgeRun flash rand gpioRead edges final)
    (below : ∀ edge ∈ serialEdges edges, CommitsBelow edge) :
    settled edges = delivered (serialEdges edges) ++
      final.returning.toList.filterMap fun call => if call.2 = 0 then some call.1 else none := by
  have same : settled edges = ((fates edges).map handlerResult).filterMap
      fun call => if call.2 = 0 then some call.1 else none := by
    rw [settled, List.filterMap_map]
    refine List.filterMap_congr fun met member => ?_
    obtain ⟨edge, _, decided⟩ := List.mem_filterMap.mp member
    rw [fate_settles decided]
    by_cases zero : met.2.ret = 0 <;> simp [handlerResult, zero]
  rw [same, fates_run run below, List.filterMap_append, delivered]

/-- What is done with and what is still to be done with are the committed packets, in order. -/
theorem settled_accounted (run : BridgeRun flash rand gpioRead edges final)
    (below : ∀ edge ∈ serialEdges edges, CommitsBelow edge) :
    settled edges ++ final.unsettled = committedPackets (serialEdges edges) := by
  have streamed := streamed_run (bridge_refines_uart run).2 below
  have streaming := bridge_streaming run below
  rw [settled_eq run below, ← streamed.committed, BridgeState.unsettled]
  cases returning : final.returning with
  | none => simp
  | some call =>
      obtain ⟨rest, oldest⟩ := returning_oldest streaming returning
      by_cases done : call.2 = 0
      · simp [done, oldest]
      · simp [done]

/-- What is presented is never empty and fits a notification. -/
theorem fates_length (run : BridgeRun flash rand gpioRead edges final)
    (below : ∀ edge ∈ serialEdges edges, CommitsBelow edge) :
    ∀ met ∈ fates edges, 1 ≤ met.1.length ∧ met.1.length ≤ 20 := by
  have streamed := streamed_run (bridge_refines_uart run).2 below
  have streaming := bridge_streaming run below
  intro met member
  have called : handlerResult met ∈ handlerCalls (serialEdges edges) ++ final.returning.toList := by
    rw [← fates_run run below]
    exact List.mem_map_of_mem member
  rcases List.mem_append.mp called with earlier | last
  · exact streamed.calls _ earlier
  · obtain ⟨rest, oldest⟩ := returning_oldest streaming (Option.mem_toList.mp last)
    exact streamed.bounded.queue _ (by rw [oldest]; exact List.mem_cons_self)

/--
Every committed packet is done with once, in the order committed, or still to be
done with.  What is presented is never empty and fits a notification, and a
refused packet is presented again before any other.
-/
theorem packets_settled_once (run : BridgeRun flash rand gpioRead edges final)
    (below : ∀ edge ∈ serialEdges edges, CommitsBelow edge) :
    settled edges ++ final.unsettled = committedPackets (serialEdges edges) ∧
      (∀ met ∈ fates edges, 1 ≤ met.1.length ∧ met.1.length ≤ 20) ∧
      (fates edges).IsChain fun earlier later =>
        earlier.2.settles = false → later.1 = earlier.1 := by
  have streamed := streamed_run (bridge_refines_uart run).2 below
  have streaming := bridge_streaming run below
  have handled := fates_run run below
  refine ⟨settled_accounted run below, fates_length run below, ?_⟩
  · have chain : ((fates edges).map handlerResult).IsChain fun earlier later =>
        earlier.2 ≠ 0 → later.1 = earlier.1 := by
      rw [handled, List.isChain_append]
      refine ⟨streamed.retried, ?_, fun earlier last later first refused => ?_⟩
      · cases final.returning <;> simp
      · cases returning : final.returning with
        | none => simp [returning] at first
        | some call =>
            obtain ⟨rest, oldest⟩ := returning_oldest streaming returning
            have head := streamed.refused earlier last refused
            rw [oldest, List.head?_cons, Option.some.injEq] at head
            simp only [returning, Option.toList_some, List.head?_cons, Option.mem_some_iff] at first
            rw [← first]
            exact head
    rw [List.isChain_map] at chain
    refine chain.imp_of_mem_imp fun earlier later member _ kept refused => kept fun zero => ?_
    obtain ⟨edge, _, decided⟩ := List.mem_filterMap.mp member
    have settles := fate_settles decided
    simp only [handlerResult] at zero
    simp [refused, zero] at settles

/-! ## A link that stays up -/

/-- A call of the stack, with the value if it is a notification to the client. -/
def StackCall.notified : StackCall → Option (List UInt8)
  | .blsAttPushNotifyData attHandle p =>
      if attHandle = nusServer2ClientInputDpH then some p else none
  | .blsPmSetManualLatency _ => none

/-- The notifications that the stack accepts along an edge. -/
def accepted (edge : BridgeTransition) : List (List UInt8) :=
  match edge.event with
  | .nusSendData _ status =>
      if status = 0 then (stackCalls edge).filterMap StackCall.notified else []
  | _ => []

/-- What the client is notified of, in order. -/
def notifications (edges : List BridgeTransition) : List (List UInt8) :=
  edges.flatMap accepted

/-- The handler finds the link up along an edge. -/
def FindsLink (edge : BridgeTransition) : Prop :=
  edge.event ≠ .gapConnected false ∧ ∀ status, edge.event ≠ .nusSendData false status

/-- The handler is not on its way to `ser2ble_at_process`. -/
def OnLink (s : BridgeState) : Prop :=
  s.handler ≠ .atProcess

theorem onLink_step {source target : BridgeState} {event : BridgeEvent} (link : OnLink source)
    (taken : bridgeStep source event = some target) (finds : FindsLink ⟨source, event, target⟩) :
    OnLink target := by
  obtain ⟨calls, _, move⟩ := bridgeStep_move taken
  cases move with
  | device | gpio => exact link
  | gapConnected connected =>
      rcases connected with _ | _
      · exact absurd rfl finds.1
      · simp [OnLink]
  | nusSendData | answer | handlerReturn => simp [OnLink]
  | atProcess fp len pc handler => exact absurd handler link

/-- With the link up a packet is done with exactly when the stack accepts it. -/
theorem settled_step {source target : BridgeState} {event : BridgeEvent} (link : OnLink source)
    (taken : bridgeStep source event = some target) (finds : FindsLink ⟨source, event, target⟩) :
    ((fate ⟨source, event, target⟩).bind
        fun met => if met.2.settles then some met.1 else none).toList =
      accepted ⟨source, event, target⟩ := by
  obtain ⟨calls, shown, move⟩ := bridgeStep_move taken
  cases move with
  | device | gpio | gapConnected | answer | handlerReturn => rw [fate_other] <;> simp [accepted]
  | atProcess fp len pc handler => exact absurd handler link
  | nusSendData connected status fp len pc handler =>
      rcases connected with _ | _
      · exact absurd rfl (finds.2 status)
      · simp only [accepted, shown, fate, pc, BridgeState.packet]
        by_cases taken : status = 0 <;>
          simp [taken, pushFate, Fate.settles, bleNusSendData, StackCall.notified]

theorem settled_of_link (run : BridgeRun flash rand gpioRead edges final)
    (finds : ∀ edge ∈ edges, FindsLink edge) : settled edges = notifications edges := by
  induction run with
  | refl => rfl
  | @tail edges source target event run taken ih =>
      have earlier := fun edge member => finds edge (List.mem_append_left _ member)
      have link : OnLink source := by
        refine run.preserves ?_ onLink_step earlier
        simp [OnLink, bridgeInit]
      have last := settled_step link taken (finds _ List.mem_concat_self)
      rw [settled, fates, List.filterMap_filterMap] at ih ⊢
      rw [filterMap_last, ih earlier, last, notifications, notifications, List.flatMap_append,
        List.flatMap_singleton]

/-- What the client has not been notified of is queued or under assembly. -/
theorem notified_rest (run : BridgeRun flash rand gpioRead edges final)
    (below : ∀ edge ∈ serialEdges edges, CommitsBelow edge)
    (finds : ∀ edge ∈ edges, FindsLink edge) :
    (notifications edges).flatten ++ (final.unsettled.flatten ++ final.app.uart.packets.current) =
      received (serialEdges edges) := by
  have streamed := streamed_run (bridge_refines_uart run).2 below
  have accounted := settled_accounted run below
  rw [settled_of_link run finds] at accounted
  rw [← streamed.bytes, Packets.stream, ← List.append_assoc, ← List.append_assoc,
    ← List.flatten_append, ← List.flatten_append, accounted, streamed.committed]

/--
While the link is up the client is notified of exactly the bytes received, in
order, less a rest of at most 1279 bytes that are queued or under assembly.
-/
theorem link_transparent (run : BridgeRun flash rand gpioRead edges final)
    (below : ∀ edge ∈ serialEdges edges, CommitsBelow edge)
    (finds : ∀ edge ∈ edges, FindsLink edge) :
    ∃ rest, (notifications edges).flatten ++ rest = received (serialEdges edges) ∧
      rest.length ≤ 1279 ∧ ∀ value ∈ notifications edges, 1 ≤ value.length ∧ value.length ≤ 20 := by
  have streamed := streamed_run (bridge_refines_uart run).2 below
  have streaming := bridge_streaming run below
  refine ⟨_, notified_rest run below finds, ?_, ?_⟩
  · have few : final.unsettled.length ≤ 63 := by
      have queued : final.app.uart.packets.queue.length ≤ 63 := by
        have backlog := streaming.below.backlog
        rw [← Rx.queued_length] at backlog
        unfold State.packets
        split
        · exact (List.length_tail ▸ Nat.sub_le _ 1).trans backlog
        · exact backlog
      unfold BridgeState.unsettled
      split
      · split
        · exact (List.length_tail ▸ Nat.sub_le _ 1).trans queued
        · exact queued
      · exact queued
    have short : ∀ packet ∈ final.unsettled, packet.length ≤ 20 := by
      intro packet member
      refine (streamed.bounded.queue packet ?_).2
      unfold BridgeState.unsettled at member
      split at member
      · split at member
        · exact List.mem_of_mem_tail member
        · exact member
      · exact member
    have total := Packets.flatten_length_le short
    have current := streamed.bounded.current
    rw [List.length_append]
    omega
  · intro value member
    rw [← settled_of_link run finds] at member
    obtain ⟨met, inside, shown⟩ := List.mem_filterMap.mp member
    obtain ⟨_, same⟩ := Option.ite_none_right_eq_some.mp shown
    cases same
    exact fates_length run below met inside

/--
Once the serial line is silent, an idle test has seen the gap, and as many
passes as packets are queued and refusals met have gone by, the client has been
notified of every byte received.
-/
theorem link_delivers (run : BridgeRun flash rand gpioRead edges final)
    (below : ∀ edge ∈ serialEdges edges, CommitsBelow edge)
    (finds : ∀ edge ∈ edges, FindsLink edge) (increasing : Increasing (serialEdges edges))
    {before rest : List YsUart.Transition} {check : YsUart.Transition} {first : Nat}
    (shape : serialEdges edges = before ++ check :: rest)
    (last : lastByteTime before = some first) (silent : ∀ edge ∈ rest, edge.event.byte = none)
    (gap : SeesGap first check)
    (enough : check.target.packets.queue.length + refusals rest ≤ passes rest) :
    (notifications edges).flatten = received (serialEdges edges) := by
  have whole := notified_rest run below finds
  have serial := (bridge_refines_uart run).2
  obtain ⟨queue, current⟩ : final.app.uart.packets.queue = [] ∧
      final.app.uart.packets.current = [] := by
    rw [shape] at serial increasing below
    exact nothing_left serial increasing below last silent gap enough
  have unsettled : final.unsettled = [] := by
    unfold BridgeState.unsettled
    rw [queue]
    split
    · split <;> rfl
    · rfl
  rw [unsettled, current, List.flatten_nil, List.append_nil, List.append_nil] at whole
  exact whole

end Runs

/-- One byte, whose packet the stack refuses once and then takes, and one more pass. -/
def refusedThenNotified : List BridgeEvent :=
  [.device (.irq (some 7) false 1000), .device .process, .device (.statement 40000),
    .device (.statement 40001), .device (.statement 40002), .gapConnected true,
    .nusSendData true 1, .handlerReturn, .device (.statement 41000), .device (.keyCheck 42000),
    .device (.scan 0x20 42000), .device .process, .device (.statement 50000),
    .device (.statement 50001), .device (.statement 50002), .gapConnected true,
    .nusSendData true 0, .handlerReturn, .device (.statement 51000), .device (.statement 51001),
    .device (.keyCheck 52000), .device (.scan 0x20 52000), .device .process]

set_option maxRecDepth 100000 in
theorem refusedThenNotified_run :
    ∃ edges final before check rest, edges.map Edge.event = refusedThenNotified ∧
      BridgeRun (fun _ => 0xFF) (fun _ => 0x2211) 0x20 edges final ∧
      (∀ edge ∈ serialEdges edges, CommitsBelow edge) ∧
      fates edges = [([7], .refused 1), ([7], .notified)] ∧ notifications edges = [[7]] ∧
      Increasing (serialEdges edges) ∧ serialEdges edges = before ++ check :: rest ∧
      lastByteTime before = some 1000 ∧ received rest = [] ∧ SeesGap 1000 check ∧
      check.target.packets.queue.length + refusals rest ≤ passes rest := by
  have enabled : (follow bridgeStep (bridgeInit (fun _ => 0xFF) (fun _ => 0x2211) 0x20)
      refusedThenNotified).isSome = true := by
    decide +kernel
  obtain ⟨final, labels, run⟩ := enabled_run enabled
  obtain ⟨below, met, told, increasing⟩ :
      (∀ edge ∈ serialEdges (trace bridgeStep
        (bridgeInit (fun _ => 0xFF) (fun _ => 0x2211) 0x20) refusedThenNotified),
        CommitsBelow edge) ∧
      fates (trace bridgeStep (bridgeInit (fun _ => 0xFF) (fun _ => 0x2211) 0x20)
        refusedThenNotified) = [([7], .refused 1), ([7], .notified)] ∧
      notifications (trace bridgeStep (bridgeInit (fun _ => 0xFF) (fun _ => 0x2211) 0x20)
        refusedThenNotified) = [[7]] ∧
      Increasing (serialEdges (trace bridgeStep
        (bridgeInit (fun _ => 0xFF) (fun _ => 0x2211) 0x20) refusedThenNotified)) := by
    rw [Increasing]
    decide +kernel
  generalize atBoot : trace bridgeStep (bridgeInit (fun _ => 0xFF) (fun _ => 0x2211) 0x20)
    refusedThenNotified = edges at labels run below met told increasing
  obtain ⟨last, quiet, counts⟩ : lastByteTime ((serialEdges edges).take 2) = some 1000 ∧
      received ((serialEdges edges).drop 3) = [] ∧
      1 + refusals ((serialEdges edges).drop 3) ≤ passes ((serialEdges edges).drop 3) := by
    rw [← atBoot]
    decide +kernel
  have tested : ((serialEdges edges).drop 2).head?.map (fun check =>
      (closesPacket check.source check.event, check.event.byte,
        check.target.packets.queue.length)) = some (true, none, 1) ∧
      ((serialEdges edges).drop 2).head?.map (fun check =>
      (check.source.rx.uartRxIdle.toNat, check.source.rx.uartRxTick, clockReading check)) =
      some (868, Clock.stamp 1000, some 40000) := by
    rw [← atBoot]
    decide +kernel
  obtain ⟨check, head, _⟩ := Option.map_eq_some_iff.mp tested.1
  simp only [head, Option.map_some, Option.some.injEq, Prod.mk.injEq] at tested
  obtain ⟨⟨closes, silent, queue⟩, idle, stamp, reading⟩ := tested
  have shape : serialEdges edges =
      (serialEdges edges).take 2 ++ check :: (serialEdges edges).drop 3 := by
    rw [← List.tail_drop, List.cons_head?_tail head, List.take_append_drop]
  have gap : SeesGap 1000 check := by
    refine (closes_iff_seesGap silent (by omega) stamp fun now read => ?_).mp closes
    have same := reading.symm.trans read
    cases same
    decide
  exact ⟨edges, final, _, check, _, labels, run, below, met, told, increasing, shape, last, quiet,
    gap, by rw [queue]; exact counts⟩

theorem packets_settled_once_refusedThenNotified :
    ∃ edges final, edges.map Edge.event = refusedThenNotified ∧
      BridgeRun (fun _ => 0xFF) (fun _ => 0x2211) 0x20 edges final ∧
      [[7]] ++ final.unsettled = committedPackets (serialEdges edges) := by
  obtain ⟨edges, final, _, _, _, labels, run, below, met, _⟩ := refusedThenNotified_run
  refine ⟨edges, final, labels, run, ?_⟩
  have accounted := (packets_settled_once run below).1
  rw [settled, met] at accounted
  exact accounted

/-- The handler finds the link up throughout. -/
theorem refusedThenNotified_findsLink {edges : List BridgeTransition}
    (labels : edges.map Edge.event = refusedThenNotified) : ∀ edge ∈ edges, FindsLink edge := by
  have events : ∀ event ∈ refusedThenNotified,
      event ≠ .gapConnected false ∧ ∀ status, event ≠ .nusSendData false status := by
    simp [refusedThenNotified]
  intro edge member
  refine events edge.event ?_
  rw [← labels]
  exact List.mem_map_of_mem member

theorem link_transparent_refusedThenNotified :
    ∃ edges final, edges.map Edge.event = refusedThenNotified ∧
      BridgeRun (fun _ => 0xFF) (fun _ => 0x2211) 0x20 edges final ∧
      ∃ rest, [7] ++ rest = received (serialEdges edges) := by
  obtain ⟨edges, final, _, _, _, labels, run, below, _, told, _⟩ := refusedThenNotified_run
  obtain ⟨rest, whole, _⟩ :=
    link_transparent run below (refusedThenNotified_findsLink labels)
  rw [told] at whole
  exact ⟨edges, final, labels, run, rest, whole⟩

theorem link_delivers_refusedThenNotified :
    ∃ edges final, edges.map Edge.event = refusedThenNotified ∧
      BridgeRun (fun _ => 0xFF) (fun _ => 0x2211) 0x20 edges final ∧
      received (serialEdges edges) = [7] := by
  obtain ⟨edges, final, before, check, rest, labels, run, below, _, told, increasing, shape, last,
    quiet, gap, enough⟩ := refusedThenNotified_run
  have silent : ∀ edge ∈ rest, edge.event.byte = none := List.filterMap_eq_nil_iff.mp quiet
  have whole := link_delivers run below (refusedThenNotified_findsLink labels) increasing shape last
    silent gap enough
  rw [told] at whole
  exact ⟨edges, final, labels, run, whole.symm⟩

end Ser2Ble.App
