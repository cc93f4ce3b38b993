import Ser2Ble.Library.Passes
import Ser2Ble.Ser2Hid.MainLoop
import Ser2Ble.YsUart.TransmitQueue

/-!
# A run of ser2hid in passes

A pass begins when the handler tests a packet, and finishes when the packet is
popped.  Every finished pass called the helpers that its packet calls for and,
if the packet is a frame, made one echo.
-/

namespace Ser2Ble.Ser2Hid

open Library Proj YsUart

/-! ## Packets as lists -/

/-- The memory that holds a packet. -/
def packetBytes (packet : List UInt8) : Nat → UInt8 :=
  fun index => packet.getD index 0

/-- The packet is a well-formed frame. -/
def isFrame (packet : List UInt8) : Bool :=
  accepts (packetBytes packet) (UInt8.ofNat packet.length)

/-- The kinds of report, in the order in which release-all sends them. -/
def ReportKind.all : List ReportKind :=
  [.keyboard, .mouse, .nkro, .consumer, .system]

/--
What a command calls for: the report of its kind, or every report released.
There is no report for the command `0x75`, which calls for nothing.
-/
def requested (command : UInt8) : List SendCall :=
  if command = releaseAll then ReportKind.all.map fun kind => ⟨kind, true⟩
  else (ReportKind.all.filter fun kind => kind.command = command).map fun kind => ⟨kind, false⟩

/-- The helpers that a packet calls for. -/
def calledFor (packet : List UInt8) : List SendCall :=
  if isFrame packet then requested (packetBytes packet 1) else []

/-- The comparisons of the handler find what the command calls for. -/
theorem sendCalls_eq_requested (command : UInt8) : sendCalls command = requested command := by
  unfold requested
  split
  · next release =>
      rw [release]
      rfl
  · next other =>
      by_cases known : ∃ kind : ReportKind, command = kind.command
      · obtain ⟨kind, rfl⟩ := known
        rw [sendCalls_command]
        cases kind <;> rfl
      · rw [not_exists] at known
        have none : ReportKind.all.filter (fun kind => kind.command = command) = [] :=
          List.filter_eq_nil_iff.mpr fun kind _ named => known kind (of_decide_eq_true named).symm
        rw [sendCalls_unknown known other, none, List.map_nil]

section Window

variable (data : Nat → UInt8) (len : UInt8)

theorem samePacket_window : SamePacket data (packetBytes (Cells.window data 0 len.toNat)) len := by
  intro index bound
  rw [packetBytes, Cells.window, List.getD_eq_getElem?_getD, List.getElem?_map,
    List.getElem?_range bound, Option.map_some, Option.getD_some, Nat.zero_add]

theorem isFrame_window : isFrame (Cells.window data 0 len.toNat) = accepts data len := by
  have same := samePacket_window data len
  rw [isFrame, Cells.window_length, UInt8.ofNat_toNat, Bool.eq_iff_iff, accepts_iff, accepts_iff]
  exact ⟨same.symm.frame, same.frame⟩

/-- The tests lead to the helpers that the packet calls for. -/
theorem afterTests_eq : afterTests data len =
    if isFrame (Cells.window data 0 len.toNat) then
      .helpers (calledFor (Cells.window data 0 len.toNat))
    else .done := by
  rw [afterTests, calledFor, isFrame_window, sendCalls_eq_requested]
  by_cases framed : accepts data len = true
  · have length := ((accepts_iff data len).mp framed).length
    rw [if_pos framed, if_pos framed, if_pos framed, samePacket_window data len 1 (by omega)]
  · rw [if_neg framed, if_neg framed]

end Window

/-! ## The passes of a run -/

/-- What the handler does for a packet after its tests. -/
inductive HandlerAct where
  | called (attempt : Attempt)
  /-- the payload that `ys_uart_send` queued, if it did -/
  | echoed (queued : Option (List UInt8))
  deriving DecidableEq

def HandlerAct.attempt : HandlerAct → Option Attempt
  | .called attempt => some attempt
  | .echoed _ => none

def HandlerAct.echo : HandlerAct → Option (Option (List UInt8))
  | .called _ => none
  | .echoed queued => some queued

abbrev HandlerPass := Pass (List UInt8) HandlerAct

def attemptsOf (pass : HandlerPass) : List Attempt :=
  pass.acts.filterMap HandlerAct.attempt

def echoesOf (pass : HandlerPass) : List (Option (List UInt8)) :=
  pass.acts.filterMap HandlerAct.echo

/-- What `ys_uart_send` queues when the handler echoes the packet at `fp`. -/
def echoResult (s : HidState) (fp : Nat) (len : UInt8) : Option (List UInt8) :=
  if (ysUartSend s.uart.tx (Cells.window (s.data fp) 0 len.toNat) len).2 = 0 then
    some (clamped (Cells.window (s.data fp) 0 len.toNat) len)
  else none

/-- What an edge is to the passes; the packet is the one that the tests read. -/
def handlerEvent (edge : HidTransition) : PassEvent (List UInt8) HandlerAct :=
  match edge.event, edge.source.uart.pc with
  | .check, .recvHandler fp len => .start (Cells.window (edge.source.data fp) 0 len.toNat)
  | .push _ _, _ =>
      match attempt edge with
      | some made => .act (.called made)
      | none => .other
  | .echo, .recvHandler fp len => .act (.echoed (echoResult edge.source fp len))
  | .statement _, .rxPop => .finish
  | _, _ => .other

def handlerLog (edges : List HidTransition) : PassLog (List UInt8) HandlerAct :=
  passLog handlerEvent edges

/-- The passes whose packet has been popped, oldest first. -/
def popped (edges : List HidTransition) : List HandlerPass :=
  (handlerLog edges).finished

/-- All that the packet calls for has been done. -/
structure Complete (pass : HandlerPass) : Prop where
  calls : (attemptsOf pass).map Attempt.call = calledFor pass.header
  echoes : (echoesOf pass).length = if isFrame pass.header then 1 else 0

/-- The packet is a frame, and some of its helpers and the echo are still to come. -/
structure Underway (pass : HandlerPass) (rest : List SendCall) : Prop where
  framed : isFrame pass.header = true
  calls : (attemptsOf pass).map Attempt.call ++ rest = calledFor pass.header
  echoes : echoesOf pass = []

/-- What the place of the handler says about the open pass. -/
inductive Tracked (s : HidState) (current : Option HandlerPass) : Prop where
  | away (pc : s.uart.pc ≠ .rxPop) (handler : s.handler = .tests) (none : current = none)
  | helpers (fp : Nat) (len : UInt8) (rest : List SendCall) (pass : HandlerPass)
      (pc : s.uart.pc = .recvHandler fp len) (handler : s.handler = .helpers rest)
      (some : current = some pass) (length : pass.header.length = len.toNat)
      (underway : Underway pass rest)
  | done (fp : Nat) (len : UInt8) (pass : HandlerPass) (pc : s.uart.pc = .recvHandler fp len)
      (handler : s.handler = .done) (some : current = some pass) (complete : Complete pass)
  | popping (pass : HandlerPass) (pc : s.uart.pc = .rxPop) (handler : s.handler = .tests)
      (some : current = some pass) (complete : Complete pass)

section Tracked

variable {s : HidState} {current : Option HandlerPass}

theorem Tracked.congr {target : HidState} (tracked : Tracked s current)
    (pc : target.uart.pc = s.uart.pc) (handler : target.handler = s.handler) :
    Tracked target current := by
  cases tracked with
  | away place tests none => exact .away (pc ▸ place) (handler.trans tests) none
  | helpers fp len rest pass place going some length underway =>
      exact .helpers fp len rest pass (pc.trans place) (handler.trans going) some length underway
  | done fp len pass place done some complete =>
      exact .done fp len pass (pc.trans place) (handler.trans done) some complete
  | popping pass place tests some complete =>
      exact .popping pass (pc.trans place) (handler.trans tests) some complete

theorem Tracked.none (tracked : Tracked s current) (elsewhere : s.uart.pc ≠ .rxPop)
    (handler : s.handler = .tests) : current = none := by
  cases tracked with
  | away pc tests none => exact none
  | helpers fp len rest pass pc going => rw [going] at handler; cases handler
  | done fp len pass pc done => rw [done] at handler; cases handler
  | popping pass pc => exact absurd pc elsewhere

/-- Outside of the handler and of the pop no pass is open. -/
theorem Tracked.outside (tracked : Tracked s current) (elsewhere : s.uart.pc ≠ .rxPop)
    (noHandler : ∀ fp len, s.uart.pc ≠ .recvHandler fp len) :
    s.handler = .tests ∧ current = Option.none := by
  cases tracked with
  | away pc tests none => exact ⟨tests, none⟩
  | helpers fp len rest pass pc => exact absurd pc (noHandler fp len)
  | done fp len pass pc => exact absurd pc (noHandler fp len)
  | popping pass pc => exact absurd pc elsewhere

theorem Tracked.underway {rest : List SendCall} (tracked : Tracked s current)
    (handler : s.handler = .helpers rest) : ∃ fp len pass, s.uart.pc = .recvHandler fp len ∧
      current = some pass ∧ pass.header.length = len.toNat ∧ Underway pass rest := by
  cases tracked with
  | away pc tests => rw [tests] at handler; cases handler
  | helpers fp len other pass pc going some length underway =>
      rw [going] at handler
      cases handler
      exact ⟨fp, len, pass, pc, some, length, underway⟩
  | done fp len pass pc done => rw [done] at handler; cases handler
  | popping pass pc tests => rw [tests] at handler; cases handler

theorem Tracked.completed (tracked : Tracked s current) (handler : s.handler = .done) :
    ∃ pass, current = some pass ∧ Complete pass := by
  cases tracked with
  | away pc tests => rw [tests] at handler; cases handler
  | helpers fp len rest pass pc going => rw [going] at handler; cases handler
  | done fp len pass pc done some complete => exact ⟨pass, some, complete⟩
  | popping pass pc tests some complete => exact ⟨pass, some, complete⟩

theorem Tracked.popped (tracked : Tracked s current) (popping : s.uart.pc = .rxPop) :
    s.handler = .tests ∧ ∃ pass, current = some pass ∧ Complete pass := by
  cases tracked with
  | away pc => exact absurd popping pc
  | helpers fp len rest pass pc => rw [pc] at popping; cases popping
  | done fp len pass pc => rw [pc] at popping; cases popping
  | popping pass pc tests some complete => exact ⟨tests, pass, some, complete⟩

end Tracked

/-! ## Every step keeps track of the pass -/

theorem handlerEvent_check {s target : HidState} {fp : Nat} {len : UInt8}
    (pc : s.uart.pc = .recvHandler fp len) :
    handlerEvent ⟨s, .check, target⟩ = .start (Cells.window (s.data fp) 0 len.toNat) := by
  simp only [handlerEvent, pc]

theorem handlerEvent_push {s target : HidState} {fp : Nat} {len : UInt8} {call : SendCall}
    {rest : List SendCall} (pc : s.uart.pc = .recvHandler fp len)
    (handler : s.handler = .helpers (call :: rest)) (connected accepted : Bool) :
    handlerEvent ⟨s, .push connected accepted, target⟩ = .act (.called
      ⟨call, call.notification (s.data fp), if connected then some accepted else none⟩) := by
  simp only [handlerEvent, attempt_push pc handler]

theorem handlerEvent_echo {s target : HidState} {fp : Nat} {len : UInt8}
    (pc : s.uart.pc = .recvHandler fp len) :
    handlerEvent ⟨s, .echo, target⟩ = .act (.echoed (echoResult s fp len)) := by
  simp only [handlerEvent, pc]

theorem handlerEvent_pop {s target : HidState} (pc : s.uart.pc = .rxPop) (now : Nat) :
    handlerEvent ⟨s, .statement now, target⟩ = .finish := by
  simp only [handlerEvent, pc]

theorem handlerEvent_statement {s target : HidState} (pc : s.uart.pc ≠ .rxPop) (now : Nat) :
    handlerEvent ⟨s, .statement now, target⟩ = .other := by
  unfold handlerEvent
  split
  · next event _ => cases event
  · next event => cases event
  · next event _ => cases event
  · next popping => exact absurd popping pc
  · rfl

theorem attemptsOf_extend (pass : HandlerPass) (act : HandlerAct) :
    attemptsOf (pass.extend act) = attemptsOf pass ++ act.attempt.toList := by
  rw [attemptsOf, Pass.extend, List.filterMap_append]
  cases act <;> rfl

theorem echoesOf_extend (pass : HandlerPass) (act : HandlerAct) :
    echoesOf (pass.extend act) = echoesOf pass ++ act.echo.toList := by
  rw [echoesOf, Pass.extend, List.filterMap_append]
  cases act <;> rfl

theorem Underway.push {pass : HandlerPass} {call : SendCall} {rest : List SendCall}
    (underway : Underway pass (call :: rest)) (notification : Notification)
    (answer : Option Bool) :
    Underway (pass.extend (.called ⟨call, notification, answer⟩)) rest := by
  refine ⟨underway.framed, Eq.trans ?_ underway.calls, ?_⟩
  · rw [attemptsOf_extend, List.map_append, List.append_assoc]
    rfl
  · rw [echoesOf_extend, underway.echoes]
    rfl

theorem Underway.echo {pass : HandlerPass} (underway : Underway pass [])
    (queued : Option (List UInt8)) : Complete (pass.extend (.echoed queued)) := by
  refine ⟨Eq.trans ?_ underway.calls, ?_⟩
  · rw [attemptsOf_extend, List.map_append]
    rfl
  · rw [echoesOf_extend, underway.echoes]
    exact (if_pos underway.framed).symm

/-- The pass that the tests open. -/
theorem tracked_check {s : HidState} {fp : Nat} {len : UInt8}
    (pc : s.uart.pc = .recvHandler fp len) :
    Tracked { s with handler := afterTests (s.data fp) len }
      (some ⟨Cells.window (s.data fp) 0 len.toNat, []⟩) := by
  rw [afterTests_eq]
  by_cases framed : isFrame (Cells.window (s.data fp) 0 len.toNat) = true
  · rw [if_pos framed]
    exact .helpers fp len _ _ pc rfl rfl (Cells.window_length _ _ _) ⟨framed, rfl, rfl⟩
  · rw [if_neg framed]
    refine .done fp len _ pc rfl rfl ⟨?_, ?_⟩
    · rw [calledFor, if_neg framed]
      rfl
    · rw [if_neg framed]
      rfl

/-- A statement pops the packet, or has nothing to do with the handler. -/
theorem statement_place {source target : YsUart.State} {now : Nat}
    (taken : YsUart.statement source now = some target) : target.pc ≠ .rxPop ∧
      (source.pc = .rxPop ∨
        source.pc ≠ .rxPop ∧ ∀ fp len, source.pc ≠ .recvHandler fp len) := by
  cases statement_cases taken with
  | rxPop now pc => exact ⟨nofun, Or.inl pc⟩
  | _ => simp_all

/-- The log after an edge, and what is known about it. -/
structure LogStep (log : PassLog (List UInt8) HandlerAct) (edge : HidTransition) : Prop where
  inOrder : log.InOrder (handlerEvent edge)
  tracked : Tracked edge.target (log.next (handlerEvent edge)).current
  complete : (∀ pass ∈ log.finished, Complete pass) →
    ∀ pass ∈ (log.next (handlerEvent edge)).finished, Complete pass

theorem LogStep.other {log : PassLog (List UInt8) HandlerAct} {edge : HidTransition}
    (other : handlerEvent edge = .other) (tracked : Tracked edge.target log.current) :
    LogStep log edge := by
  refine ⟨?_, ?_, ?_⟩ <;> rw [other]
  · trivial
  · exact tracked
  · exact id

theorem LogStep.start {log : PassLog (List UInt8) HandlerAct} {edge : HidTransition}
    {packet : List UInt8} (closed : log.current = none)
    (event : handlerEvent edge = .start packet)
    (tracked : Tracked edge.target (some ⟨packet, []⟩)) : LogStep log edge := by
  refine ⟨?_, ?_, ?_⟩ <;> rw [event]
  · exact closed
  · exact tracked
  · exact id

theorem LogStep.act {log : PassLog (List UInt8) HandlerAct} {edge : HidTransition}
    {pass : HandlerPass} {act : HandlerAct} (opened : log.current = some pass)
    (event : handlerEvent edge = .act act)
    (tracked : Tracked edge.target (some (pass.extend act))) : LogStep log edge := by
  refine ⟨?_, ?_, ?_⟩ <;> rw [event]
  · change log.current ≠ none
    rw [opened]
    exact Option.some_ne_none pass
  · rw [PassLog.next, opened]
    exact tracked
  · exact id

theorem LogStep.finish {log : PassLog (List UInt8) HandlerAct} {edge : HidTransition}
    {pass : HandlerPass} (opened : log.current = some pass) (complete : Complete pass)
    (event : handlerEvent edge = .finish) (tracked : Tracked edge.target none) :
    LogStep log edge := by
  refine ⟨?_, ?_, ?_⟩ <;> rw [event]
  · trivial
  · exact tracked
  · intro earlier
    rw [PassLog.next, opened]
    exact forall_mem_last earlier complete

theorem hidStep_log {source target : HidState} {event : HidEvent}
    {log : PassLog (List UInt8) HandlerAct} (tracked : Tracked source log.current)
    (taken : hidStep source event = some target) : LogStep log ⟨source, event, target⟩ := by
  obtain ⟨calls, _, move⟩ := hidStep_move taken
  cases move with
  | irq byte txDone now => exact .other rfl (tracked.congr rfl rfl)
  | process place outside =>
      obtain ⟨tests, none⟩ := tracked.outside (by rw [outside]; nofun)
        (fun fp len => by rw [outside]; nofun)
      exact .other rfl (.away nofun tests none)
  | statement now uart place stepped =>
      obtain ⟨after, popping | ⟨elsewhere, noHandler⟩⟩ := statement_place stepped
      · obtain ⟨tests, pass, some, complete⟩ := tracked.popped popping
        exact .finish some complete (handlerEvent_pop popping now) (.away after tests rfl)
      · obtain ⟨tests, none⟩ := tracked.outside elsewhere noHandler
        exact .other (handlerEvent_statement elsewhere now) (.away after tests none)
  | check fp len pc handler =>
      have none := tracked.none (by rw [pc]; nofun) handler
      exact .start none (handlerEvent_check pc) (tracked_check pc)
  | push connected accepted fp len call rest pc handler =>
      obtain ⟨fp', len', pass, pc', some, length, underway⟩ := tracked.underway handler
      refine .act some (handlerEvent_push pc handler connected accepted) ?_
      exact .helpers fp' len' rest _ pc' rfl rfl length (underway.push _ _)
  | echo fp len pc handler =>
      obtain ⟨_, _, pass, _, some, length, underway⟩ := tracked.underway handler
      refine .act some (handlerEvent_echo pc) ?_
      exact .done fp len _ pc rfl rfl (underway.echo _)
  | handlerReturn fp len pc handler =>
      obtain ⟨pass, some, complete⟩ := tracked.completed handler
      exact .other rfl (.popping pass rfl rfl some complete)
  | keyCheck now place outside =>
      refine .other rfl ?_
      rw [keyCheck_frame]
      exact tracked.congr rfl rfl
  | scan gpioRead now place =>
      refine .other rfl ?_
      rw [switchScan_frame]
      exact tracked.congr rfl rfl

/-- What the log of a run is known to be. -/
structure Logged (edges : List HidTransition) (final : HidState) : Prop where
  orderly : Orderly handlerEvent edges
  tracked : Tracked final (handlerLog edges).current
  complete : ∀ pass ∈ popped edges, Complete pass

theorem logged_run {gpioRead : UInt32} {edges : List HidTransition} {final : HidState}
    (run : HidRun gpioRead edges final) : Logged edges final := by
  induction run with
  | refl =>
      have outside : (ser2hidInit gpioRead).uart.pc = .outside := init_pc _
      refine ⟨fun before edge rest shape => absurd shape (by simp), ?_, fun _ member => nomatch member⟩
      exact .away (by rw [outside]; nofun) rfl rfl
  | tail run taken ih =>
      have step := hidStep_log ih.tracked taken
      refine ⟨throughout_last.mpr ⟨ih.orderly, step.inOrder⟩, ?_, ?_⟩
      · rw [handlerLog, passLog_last]
        exact step.tracked
      · rw [popped, handlerLog, passLog_last]
        exact step.complete ih.complete

end Ser2Ble.Ser2Hid
