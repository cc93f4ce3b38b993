import Ser2Ble.Ser2Hid.RecvHandler
import Ser2Ble.YsSwitch.Scan
import Ser2Ble.YsUart.Machine

/-!
# The main loop of `vendor/826x_ser2hid`

`main` repeats `blt_sdk_main_loop`, `ser2hid_process` and `ys_switch_scan`.
Inside `ys_uart_process` the handler makes its tests, calls its helpers one by
one, echoes and returns; interrupts may come between any two of these, so each
reads the packet as it is by then.  The button code is atomic.
-/

namespace Ser2Ble.Ser2Hid

open Library Proj YsSwitch YsUart

/-! ## The model -/

/-- What the main loop is doing. -/
inductive Place where
  | sdk
  | process
  | scan
  deriving DecidableEq, Repr

/-- Where `ys_uart_recv_handler` goes on, or begins when it is called next. -/
inductive HandlerPc where
  | tests
  /-- the helpers still to be called, and then `ys_uart_send` -/
  | helpers (calls : List SendCall)
  | done
  deriving DecidableEq, Repr

/-- The variables of `ser2hid.c` and of the modules that it drives. -/
structure HidState where
  uart : YsUart.State
  handler : HandlerPc
  keyTick : UInt32
  /-- `sw_tbl[SW_CFG]`; its only action is `ser2hid_cfg_key_handler` -/
  switch : SwitchSts Unit
  place : Place

/-- `data` in the handler; `fp` is the slot of the packet. -/
def HidState.data (s : HidState) (fp : Nat) : Nat → UInt8 :=
  fun index => s.uart.rx.cells (fp + 2 + index)

/-- `ser2hid_init`; `gpioRead` is the level of the switch. -/
def ser2hidInit (gpioRead : UInt32) : HidState where
  uart := ysUartInit powerOn UartBaudTypeDef.uartBaud115200.code
  handler := .tests
  keyTick := 0
  switch := (ysSwitchRegister ysSwitchInit 0 swCfgPin (some ()) gpioRead).1
  place := .sdk

/-- What the button code calls outside of `ser2hid.c`. -/
inductive ButtonCall where
  | bleSendKeyboard (kbData : List UInt8)
  | bleDisconnect
  | blsSmpEraseAllParingInformation
  deriving DecidableEq, Repr

/-- `kb_data` with `kb_data[2]` set. -/
def kbData (key : UInt8) : List UInt8 :=
  [0, 0, key, 0, 0, 0, 0, 0]

/-- The report of a press. -/
def keyDown : List UInt8 := kbData 0x04

/-- The report of a release. -/
def keyUp : List UInt8 := kbData 0

/-- `ser2hid_cfg_key_handler`; the clock is read on a press only. -/
def ser2hidCfgKeyHandler (s : HidState) (val : UInt8) (now : Nat) : HidState × List ButtonCall :=
  if val = 0 then ({ s with keyTick := clockTime now ||| 1 }, [.bleSendKeyboard keyDown])
  else if s.keyTick ≠ 0 then ({ s with keyTick := 0 }, [.bleSendKeyboard keyUp])
  else (s, [])

/--
`ser2hid_process` after the return of `ys_uart_process`; the clock is read
while `key_tick` is set.
-/
def keyCheck (s : HidState) (now : Nat) : HidState × List ButtonCall :=
  if s.keyTick ≠ 0 ∧ clockTimeExceed now s.keyTick 3000000 = true then
    let released := ser2hidCfgKeyHandler s 1 now
    (released.1, released.2 ++ [.bleDisconnect, .blsSmpEraseAllParingInformation])
  else (s, [])

/-- `ys_switch_scan` with its action. -/
def switchScan (s : HidState) (gpioRead : UInt32) (now : Nat) : HidState × List ButtonCall :=
  let scanned := ysSwitchScan s.switch gpioRead
  let s := { s with switch := scanned.1 }
  match scanned.2 with
  | some (_, val) => ser2hidCfgKeyHandler s val now
  | none => (s, [])

inductive HidEvent where
  /-- `irq_handler`: the byte received, if any, and whether a DMA transmission has ended -/
  | irq (byte : Option UInt8) (txDone : Bool) (now : Nat)
  /-- the call of `ser2hid_process`, and of `ys_uart_process` in it -/
  | process
  /-- the next statement of the running `ys_uart_process` -/
  | statement (now : Nat)
  /-- the tests of `ys_uart_recv_handler` -/
  | check
  /-- its next helper: the link state, and whether the stack accepts the notification -/
  | push (connected accepted : Bool)
  /-- its call of `ys_uart_send` -/
  | echo
  | handlerReturn
  | keyCheck (now : Nat)
  | scan (gpioRead : UInt32) (now : Nat)

/-- The event of the UART module that an event of the device is. -/
def HidState.uartEvent (s : HidState) : HidEvent → Option YsUart.Event
  | .irq byte txDone now => some (.irq byte txDone now)
  | .process => some .process
  | .statement now => some (.statement now)
  | .echo =>
      match s.uart.pc with
      | .recvHandler fp len => some (.send (Cells.window (s.data fp) 0 len.toNat) len)
      | _ => none
  | .handlerReturn => some (.handlerReturn 0)
  | .check | .push _ _ | .keyCheck _ | .scan _ _ => none

/-- The step of the UART module that an event is, with no call of the button code. -/
def uartStep (s : HidState) (event : HidEvent) : Option (HidState × List ButtonCall) :=
  ((s.uartEvent event).bind (YsUart.step s.uart)).map fun uart => ({ s with uart := uart }, [])

/-- The place of the handler after its tests. -/
def afterTests (data : Nat → UInt8) (len : UInt8) : HandlerPc :=
  if accepts data len then .helpers (sendCalls (data 1)) else .done

/-- One step of the device: the new state, and the calls that the button code made. -/
def exec (s : HidState) : HidEvent → Option (HidState × List ButtonCall)
  | .irq byte txDone now => uartStep s (.irq byte txDone now)
  | .process => if s.place = .sdk then uartStep { s with place := .process } .process else none
  | .statement now => if s.place = .process then uartStep s (.statement now) else none
  | .check =>
      match s.uart.pc, s.handler with
      | .recvHandler fp len, .tests => some ({ s with handler := afterTests (s.data fp) len }, [])
      | _, _ => none
  | .push _ _ =>
      -- what the stack answers is dropped by the helper
      match s.uart.pc, s.handler with
      | .recvHandler _ _, .helpers (_ :: rest) => some ({ s with handler := .helpers rest }, [])
      | _, _ => none
  | .echo => if s.handler = .helpers [] then uartStep { s with handler := .done } .echo else none
  | .handlerReturn =>
      if s.handler = .done then uartStep { s with handler := .tests } .handlerReturn else none
  | .keyCheck now =>
      if s.place = .process ∧ s.uart.pc = .outside then
        some (keyCheck { s with place := .scan } now)
      else none
  | .scan gpioRead now =>
      if s.place = .scan then some (switchScan { s with place := .sdk } gpioRead now) else none

def hidStep (s : HidState) (event : HidEvent) : Option HidState :=
  (exec s event).map Prod.fst

abbrev HidTransition := Edge HidState HidEvent

/-- The calls of the button code along an edge, in order. -/
def buttonCalls (edge : HidTransition) : List ButtonCall :=
  match exec edge.source edge.event with
  | some (_, calls) => calls
  | none => []

/-- The runs of the device from power-on. -/
abbrev HidRun (gpioRead : UInt32) : List HidTransition → HidState → Prop :=
  Run hidStep (ser2hidInit gpioRead)

/-- Bytes arrive, 1400 ticks apart. -/
def arrival (start : Nat) (bytes : List UInt8) : List HidEvent :=
  bytes.mapIdx fun index byte => .irq (some byte) false (start + 1400 * index)

/-- The rest of a pass of the main loop, from the transmit side of `ys_uart_process` on. -/
def restOfPass (now statements : Nat) : List HidEvent :=
  List.replicate statements (.statement now) ++ [.keyCheck now, .scan 0x20 now]

/-! ## Every step, once -/

/-- The ways the device can go on. -/
inductive Move (s : HidState) : HidEvent → HidState → List ButtonCall → Prop where
  | irq (byte : Option UInt8) (txDone : Bool) (now : Nat) :
      Move s (.irq byte txDone now) { s with uart := ysUartIrqHandler s.uart byte txDone now } []
  | process (place : s.place = .sdk) (outside : s.uart.pc = .outside) :
      Move s .process { s with uart := { s.uart with pc := .idleFlush }, place := .process } []
  | statement (now : Nat) (uart : YsUart.State) (place : s.place = .process)
      (taken : YsUart.statement s.uart now = some uart) :
      Move s (.statement now) { s with uart := uart } []
  | check (fp : Nat) (len : UInt8) (pc : s.uart.pc = .recvHandler fp len)
      (handler : s.handler = .tests) :
      Move s .check { s with handler := afterTests (s.data fp) len } []
  | push (connected accepted : Bool) (fp : Nat) (len : UInt8) (call : SendCall)
      (rest : List SendCall) (pc : s.uart.pc = .recvHandler fp len)
      (handler : s.handler = .helpers (call :: rest)) :
      Move s (.push connected accepted) { s with handler := .helpers rest } []
  | echo (fp : Nat) (len : UInt8) (pc : s.uart.pc = .recvHandler fp len)
      (handler : s.handler = .helpers []) :
      Move s .echo { s with
        uart := { s.uart with
          tx := (ysUartSend s.uart.tx (Cells.window (s.data fp) 0 len.toNat) len).1 }
        handler := .done } []
  | handlerReturn (fp : Nat) (len : UInt8) (pc : s.uart.pc = .recvHandler fp len)
      (handler : s.handler = .done) :
      Move s .handlerReturn { s with uart := { s.uart with pc := .rxPop }, handler := .tests } []
  | keyCheck (now : Nat) (place : s.place = .process) (outside : s.uart.pc = .outside) :
      Move s (.keyCheck now) (keyCheck { s with place := .scan } now).1
        (keyCheck { s with place := .scan } now).2
  | scan (gpioRead : UInt32) (now : Nat) (place : s.place = .scan) :
      Move s (.scan gpioRead now) (switchScan { s with place := .sdk } gpioRead now).1
        (switchScan { s with place := .sdk } gpioRead now).2

theorem uartStep_some {s target : HidState} {event : HidEvent} {calls : List ButtonCall}
    (taken : uartStep s event = some (target, calls)) : ∃ uartEvent uart,
      s.uartEvent event = some uartEvent ∧ YsUart.step s.uart uartEvent = some uart ∧
        target = { s with uart := uart } ∧ calls = [] := by
  obtain ⟨uart, moved, same⟩ := Option.map_eq_some_iff.mp taken
  obtain ⟨uartEvent, named, stepped⟩ := Option.bind_eq_some_iff.mp moved
  cases same
  exact ⟨uartEvent, uart, named, stepped, rfl, rfl⟩

theorem exec_move {s target : HidState} {event : HidEvent} {calls : List ButtonCall}
    (taken : exec s event = some (target, calls)) : Move s event target calls := by
  cases event with
  | irq byte txDone now =>
      obtain ⟨_, uart, named, stepped, rfl, rfl⟩ := uartStep_some taken
      cases named
      cases stepped
      exact .irq byte txDone now
  | process =>
      obtain ⟨place, moved⟩ := Option.ite_none_right_eq_some.mp taken
      obtain ⟨_, uart, named, stepped, rfl, rfl⟩ := uartStep_some moved
      cases named
      obtain ⟨outside, same⟩ := Option.ite_none_right_eq_some.mp stepped
      cases same
      exact .process place outside
  | statement now =>
      obtain ⟨place, moved⟩ := Option.ite_none_right_eq_some.mp taken
      obtain ⟨_, uart, named, stepped, rfl, rfl⟩ := uartStep_some moved
      cases named
      exact .statement now uart place stepped
  | check =>
      simp only [exec] at taken
      split at taken
      · next fp len pc handler =>
          cases taken
          exact .check fp len pc handler
      · cases taken
  | push connected accepted =>
      simp only [exec] at taken
      split at taken
      · next fp len call rest pc handler =>
          cases taken
          exact .push connected accepted fp len call rest pc handler
      · cases taken
  | echo =>
      obtain ⟨handler, moved⟩ := Option.ite_none_right_eq_some.mp taken
      obtain ⟨_, uart, named, stepped, rfl, rfl⟩ := uartStep_some moved
      simp only [HidState.uartEvent] at named
      split at named
      · next fp len pc =>
          cases named
          obtain ⟨_, same⟩ := Option.ite_none_right_eq_some.mp stepped
          cases same
          exact .echo fp len pc handler
      · cases named
  | handlerReturn =>
      obtain ⟨handler, moved⟩ := Option.ite_none_right_eq_some.mp taken
      obtain ⟨_, uart, named, stepped, rfl, rfl⟩ := uartStep_some moved
      cases named
      simp only [YsUart.step] at stepped
      split at stepped
      · next fp len pc =>
          cases stepped
          exact .handlerReturn fp len pc handler
      · cases stepped
  | keyCheck now =>
      obtain ⟨⟨place, outside⟩, moved⟩ := Option.ite_none_right_eq_some.mp taken
      obtain ⟨rfl, rfl⟩ := Prod.ext_iff.mp (Option.some.inj moved)
      exact .keyCheck now place outside
  | scan gpioRead now =>
      obtain ⟨place, moved⟩ := Option.ite_none_right_eq_some.mp taken
      obtain ⟨rfl, rfl⟩ := Prod.ext_iff.mp (Option.some.inj moved)
      exact .scan gpioRead now place

/-- A step with the calls that its edge shows. -/
theorem hidStep_move {s target : HidState} {event : HidEvent}
    (taken : hidStep s event = some target) :
    ∃ calls, buttonCalls ⟨s, event, target⟩ = calls ∧ Move s event target calls := by
  obtain ⟨⟨reached, calls⟩, executed, rfl⟩ := Option.map_eq_some_iff.mp taken
  refine ⟨calls, ?_, exec_move executed⟩
  simp only [buttonCalls, executed]

/-! ## The device drives the UART module -/

theorem cfgKeyHandler_frame (s : HidState) (val : UInt8) (now : Nat) :
    (ser2hidCfgKeyHandler s val now).1 =
      { s with keyTick := (ser2hidCfgKeyHandler s val now).1.keyTick } := by
  unfold ser2hidCfgKeyHandler
  split
  · rfl
  · split <;> rfl

theorem keyCheck_frame (s : HidState) (now : Nat) :
    (keyCheck s now).1 = { s with keyTick := (keyCheck s now).1.keyTick } := by
  unfold keyCheck
  split
  · exact cfgKeyHandler_frame s 1 now
  · rfl

theorem switchScan_frame (s : HidState) (gpioRead : UInt32) (now : Nat) :
    (switchScan s gpioRead now).1 =
      { s with
        keyTick := (switchScan s gpioRead now).1.keyTick
        switch := (ysSwitchScan s.switch gpioRead).1 } := by
  unfold switchScan
  dsimp only
  split
  · exact cfgKeyHandler_frame _ _ now
  · rfl

/-- The step of the UART module along an edge. -/
def uartEdge (edge : HidTransition) : Option YsUart.Transition :=
  (edge.source.uartEvent edge.event).map fun event => ⟨edge.source.uart, event, edge.target.uart⟩

/-- The edges of the UART module along a run of the device. -/
def uartEdges (edges : List HidTransition) : List YsUart.Transition :=
  edges.filterMap uartEdge

theorem uartEdges_last (edges : List HidTransition) (edge : HidTransition) :
    uartEdges (edges ++ [edge]) = uartEdges edges ++ (uartEdge edge).toList :=
  filterMap_last uartEdge edges edge

theorem uartEvent_echo {s : HidState} {fp : Nat} {len : UInt8}
    (pc : s.uart.pc = .recvHandler fp len) :
    s.uartEvent .echo = some (.send (Cells.window (s.data fp) 0 len.toNat) len) := by
  simp only [HidState.uartEvent, pc]

/-- A step of the device is a step of the UART module or leaves it alone. -/
theorem hidStep_uart {source target : HidState} {event : HidEvent}
    (taken : hidStep source event = some target) :
    match source.uartEvent event with
    | some uartEvent => YsUart.step source.uart uartEvent = some target.uart
    | none => target.uart = source.uart := by
  obtain ⟨calls, _, move⟩ := hidStep_move taken
  cases move with
  | irq byte txDone now => rfl
  | process place outside => exact if_pos outside
  | statement now uart place stepped => exact stepped
  | check fp len pc handler => rfl
  | push connected accepted fp len call rest pc handler => rfl
  | echo fp len pc handler =>
      rw [uartEvent_echo pc]
      refine if_pos ⟨?_, Nat.le_of_eq (Cells.window_length _ _ _).symm⟩
      rw [pc]
      rfl
  | handlerReturn fp len pc handler =>
      change YsUart.step source.uart (.handlerReturn 0) = _
      simp only [YsUart.step, pc]
      rfl
  | keyCheck now place outside =>
      rw [keyCheck_frame]
      rfl
  | scan gpioRead now place =>
      rw [switchScan_frame]
      rfl

/-- Every run of the device is a run of the UART module at 115200 baud. -/
theorem hid_refines_uart {gpioRead : UInt32} {edges : List HidTransition} {final : HidState}
    (run : HidRun gpioRead edges final) :
    UartRun UartBaudTypeDef.uartBaud115200.code (uartEdges edges) final.uart := by
  induction run with
  | refl => exact .refl
  | @tail edges source target event run taken ih =>
      have moved := hidStep_uart taken
      rw [uartEdges_last, uartEdge]
      dsimp only
      cases named : source.uartEvent event with
      | none =>
          rw [named] at moved
          rw [moved, Option.map_none, Option.toList_none, List.append_nil]
          exact ih
      | some uartEvent =>
          rw [named] at moved
          exact ih.tail moved

/-! ## The handler without interrupts -/

/--
A call of a helper by the handler; `answer` is what the stack said to the
notification, and `none` on a link that is not connected.
-/
structure Attempt where
  call : SendCall
  notification : Notification
  answer : Option Bool
  deriving DecidableEq, Repr

/-- What was given to `bls_att_pushNotifyData`. -/
def Attempt.pushed (attempt : Attempt) : Option Notification :=
  attempt.answer.map fun _ => attempt.notification

def attempt (edge : HidTransition) : Option Attempt :=
  match edge.event, edge.source.uart.pc, edge.source.handler with
  | .push connected accepted, .recvHandler fp _, .helpers (call :: _) =>
      some ⟨call, call.notification (edge.source.data fp), if connected then some accepted else none⟩
  | _, _, _ => none

def attempts (edges : List HidTransition) : List Attempt :=
  edges.filterMap attempt

theorem attempts_last (edges : List HidTransition) (edge : HidTransition) :
    attempts (edges ++ [edge]) = attempts edges ++ (attempt edge).toList :=
  filterMap_last attempt edges edge

theorem attempt_push {s target : HidState} {fp : Nat} {len : UInt8} {call : SendCall}
    {rest : List SendCall} (pc : s.uart.pc = .recvHandler fp len)
    (handler : s.handler = .helpers (call :: rest)) (connected accepted : Bool) :
    attempt ⟨s, .push connected accepted, target⟩ = some
      ⟨call, call.notification (s.data fp), if connected then some accepted else none⟩ := by
  unfold attempt
  dsimp only
  rw [pc, handler]

/-- The helpers run one after the other, whatever the stack answers. -/
theorem helpers_run {s : HidState} {fp : Nat} {len : UInt8}
    (pc : s.uart.pc = .recvHandler fp len) {calls : List SendCall}
    (handler : s.handler = .helpers calls) (connected accepted : Bool) :
    ∃ edges, Run hidStep s edges { s with handler := .helpers [] } ∧
      (attempts edges).filterMap Attempt.pushed =
        if connected then calls.map (SendCall.notification (s.data fp)) else [] := by
  induction calls generalizing s with
  | nil =>
      refine ⟨[], ?_, by cases connected <;> rfl⟩
      rw [← handler]
      exact .refl
  | cons call rest ih =>
      have taken : hidStep s (.push connected accepted) =
          some { s with handler := .helpers rest } := by
        simp only [hidStep, exec, pc, handler, Option.map_some]
      obtain ⟨edges, run, shown⟩ := @ih { s with handler := .helpers rest } pc rfl
      refine ⟨_, (Run.refl.tail taken).append run, ?_⟩
      rw [attempts, List.nil_append, List.singleton_append,
        List.filterMap_cons_some (attempt_push pc handler connected accepted)]
      cases connected with
      | false => exact shown
      | true => exact congrArg (List.cons _) shown

section Handler

variable {s : HidState} {fp : Nat} {len : UInt8}

theorem hidStep_check (pc : s.uart.pc = .recvHandler fp len) (handler : s.handler = .tests) :
    hidStep s .check = some { s with handler := afterTests (s.data fp) len } := by
  simp only [hidStep, exec, pc, handler, Option.map_some]

theorem hidStep_echo (pc : s.uart.pc = .recvHandler fp len) (handler : s.handler = .helpers []) :
    hidStep s .echo = some { s with
      uart := { s.uart with
        tx := (ysUartSend s.uart.tx (Cells.window (s.data fp) 0 len.toNat) len).1 }
      handler := .done } := by
  have enough := Nat.le_of_eq (Cells.window_length (s.data fp) 0 len.toNat).symm
  have named : ({ s with handler := .done } : HidState).uartEvent .echo =
      some (.send (Cells.window (s.data fp) 0 len.toNat) len) := uartEvent_echo pc
  rw [hidStep, exec, if_pos handler, uartStep, named]
  dsimp only [Option.bind_some]
  rw [YsUart.step, pc, if_pos ⟨rfl, enough⟩]
  rfl

theorem hidStep_return (pc : s.uart.pc = .recvHandler fp len) (handler : s.handler = .done) :
    hidStep s .handlerReturn =
      some { s with uart := { s.uart with pc := .rxPop }, handler := .tests } := by
  rw [hidStep, exec, if_pos handler, uartStep]
  dsimp only [HidState.uartEvent, Option.bind_some]
  rw [YsUart.step, pc]
  rfl

/-- With no interrupt in between, the steps of the handler have its effect. -/
theorem handler_uninterrupted (pc : s.uart.pc = .recvHandler fp len) (handler : s.handler = .tests)
    (connected accepted : Bool) :
    ∃ edges, Run hidStep s edges { s with
        uart := { s.uart with
          tx := match (ysUartRecvHandler connected (s.data fp) len).echo with
            | some (data, len) => (ysUartSend s.uart.tx data len).1
            | none => s.uart.tx
          pc := .rxPop } } ∧
      (attempts edges).filterMap Attempt.pushed =
        (ysUartRecvHandler connected (s.data fp) len).notifications := by
  obtain ⟨uart, handlerPc, keyTick, switch, place⟩ := s
  dsimp only at pc handler
  subst handler
  have tested := Run.refl.tail (@hidStep_check ⟨uart, .tests, keyTick, switch, place⟩ fp len pc rfl)
  rw [ysUartRecvHandler]
  by_cases framed : accepts (HidState.data ⟨uart, .tests, keyTick, switch, place⟩ fp) len = true
  · rw [afterTests, if_pos framed] at tested
    rw [if_pos framed]
    obtain ⟨edges, helped, shown⟩ :=
      @helpers_run ⟨uart, .helpers _, keyTick, switch, place⟩ fp len pc _ rfl connected accepted
    have returned := ((tested.append helped).tail (hidStep_echo pc rfl)).tail (hidStep_return pc rfl)
    refine ⟨_, returned, Eq.trans ?_ shown⟩
    rw [attempts_last, attempts_last, attempts, List.nil_append, List.singleton_append,
      List.filterMap_cons_none rfl]
    change (attempts edges ++ [] ++ []).filterMap Attempt.pushed = _
    rw [List.append_nil, List.append_nil]
  · rw [afterTests, if_neg framed] at tested
    rw [if_neg framed]
    have returned := tested.tail (hidStep_return pc rfl)
    exact ⟨_, returned, rfl⟩

end Handler

end Ser2Ble.Ser2Hid
