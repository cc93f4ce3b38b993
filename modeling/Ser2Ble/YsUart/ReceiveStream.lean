import Mathlib.Data.List.Chain
import Ser2Ble.YsUart.ReceivePackets

/-!
# The byte stream from the UART to the handler

Every transition of the module is one operation of the packetizer, so along a
run nothing that was received is lost, repeated or reordered.  The results here
are for runs that never commit a packet while 63 packets are queued.
-/

namespace Ser2Ble.YsUart

open Library Proj

/-! ## One transition, one operation -/

/--
The packets that the handler has not accepted, and the bytes under assembly.
Between the return of the handler and the pop, the oldest slot is already accepted.
-/
def State.packets (s : State) : Packets UInt8 :=
  if s.pc = .rxPop then s.rx.packets.pop else s.rx.packets

theorem State.packets_current (s : State) : s.packets.current = s.rx.assembling := by
  unfold State.packets
  split <;> rfl

theorem State.packets_eq {source target : State} (rx : target.rx.packets = source.rx.packets)
    (before : source.pc ≠ .rxPop) (after : target.pc ≠ .rxPop) :
    target.packets = source.packets := by
  rw [State.packets, State.packets, if_neg before, if_neg after, rx]

/-- The length passed to a running handler is the length of the packet it was given. -/
def Presenting (s : State) : Prop :=
  ∀ fp len, s.pc = .recvHandler fp len → len = s.rx.cells fp - 2

structure Streaming (s : State) : Prop where
  below : Below s
  presenting : Presenting s

theorem presenting_step {source target : State} {event : Event} (streaming : Streaming source)
    (taken : step source event = some target) (good : CommitsBelow ⟨source, event, target⟩) :
    Presenting target := by
  have kept := preserved_step streaming.below taken good
  intro fp len pc
  have stay : source.pc = .recvHandler fp len → len = target.rx.cells fp - 2 := by
    intro before
    have reading := streaming.below.live.reading
    rw [Reading, before] at reading
    have same := kept 0 reading.1 0 (by decide)
    rw [Nat.add_zero, ← reading.2] at same
    rw [same]
    exact streaming.presenting fp len before
  cases step_cases taken with
  | irq | send | attWrite => exact stay pc
  | setBaud baud outside => exact stay ((ysUartSetBaud_pc source baud).symm.trans pc)
  | recvCall now base place =>
      cases pc
      rfl
  | _ => cases pc

theorem init_streaming (baud : UInt8) : Streaming (ysUartInit powerOn baud) := by
  refine ⟨init_below baud, fun fp len pc => ?_⟩
  rw [init_pc] at pc
  cases pc

theorem streaming_step {source target : State} {event : Event} (streaming : Streaming source)
    (taken : step source event = some target) (good : CommitsBelow ⟨source, event, target⟩) :
    Streaming target :=
  ⟨below_step streaming.below taken good, presenting_step streaming taken good⟩

/-- The packet that an edge commits, read from its slot after the edge. -/
def committedPacket (edge : Transition) : Option (List UInt8) :=
  if commits edge then some (packetAt edge.target.rx.cells edge.source.rx.wlen) else none

theorem committedPacket_none {edge : Transition}
    (quiet : closesPacket edge.source edge.event = false) : committedPacket edge = none := by
  apply if_neg
  rintro ⟨closes, _⟩
  rw [quiet] at closes
  cases closes

/-- What an edge does, as an operation of the packetizer. -/
inductive PacketStep (edge : Transition) : Prop where
  | keep (silent : edge.event.byte = none) (noCall : handlerCall edge = none)
      (uncommitted : committedPacket edge = none)
      (packets : edge.target.packets = edge.source.packets)
  | receive (byte : UInt8) (arrived : edge.event.byte = some byte)
      (noCall : handlerCall edge = none)
      (committed : committedPacket edge =
        if edge.source.packets.current.length + 1 < 20 then none
        else some (edge.source.packets.current ++ [byte]))
      (packets : edge.target.packets = edge.source.packets.receive 20 byte)
  | close (silent : edge.event.byte = none) (noCall : handlerCall edge = none)
      (filled : edge.source.packets.current ≠ [])
      (committed : committedPacket edge = some edge.source.packets.current)
      (packets : edge.target.packets = edge.source.packets.close)
  | deliver (payload : List UInt8) (rest : List (List UInt8)) (silent : edge.event.byte = none)
      (call : handlerCall edge = some (payload, 0)) (uncommitted : committedPacket edge = none)
      (oldest : edge.source.packets.queue = payload :: rest)
      (packets : edge.target.packets = edge.source.packets.pop)
  | refuse (payload : List UInt8) (rest : List (List UInt8)) (ret : Int)
      (silent : edge.event.byte = none) (refused : ret ≠ 0)
      (call : handlerCall edge = some (payload, ret)) (uncommitted : committedPacket edge = none)
      (oldest : edge.source.packets.queue = payload :: rest)
      (packets : edge.target.packets = edge.source.packets)

/-- A byte interrupt is the packetizer's `receive`, also while an accepted packet awaits its pop. -/
theorem packet_step_byte {source : State} (streaming : Streaming source) (byte : UInt8)
    (txDone : Bool) (now : Nat)
    (good : CommitsBelow
      ⟨source, .irq (some byte) txDone now, ysUartIrqHandler source (some byte) txDone now⟩) :
    PacketStep
      ⟨source, .irq (some byte) txDone now, ysUartIrqHandler source (some byte) txDone now⟩ := by
  have below := streaming.below
  have sound := below.live.sound
  have notFull := below.noStall.length_ne sound
  have room : ¬ (source.rx.storeByte byte).length < 22 → source.rx.backlog < 63 :=
    fun long => below.closes good (closesPacket_byte txDone now long)
  have received := sound.receiveByte_packets byte now notFull below.room room
  refine .receive byte rfl rfl ?_ ?_
  · -- the packet is committed exactly when the byte is its 20th
    have lower := sound.lower
    have limit : source.packets.current.length + 1 < 20 ↔
        (source.rx.storeByte byte).length < 22 := by
      rw [State.packets_current, sound.assembling_length, sound.stored_short_iff]
      omega
    by_cases short : (source.rx.storeByte byte).length < 22
    · have quiet : closesPacket source (.irq (some byte) txDone now) = false := by
        rw [closesPacket, decide_eq_true short]
        rfl
      rw [committedPacket_none quiet]
      exact (if_pos (limit.mpr short)).symm
    · have commit : commits ⟨source, .irq (some byte) txDone now,
          ysUartIrqHandler source (some byte) txDone now⟩ :=
        ⟨closesPacket_byte txDone now short, below.room⟩
      have packet := sound.receiveByte_packetAt byte now notFull short (room short)
      rw [committedPacket, if_pos commit]
      dsimp only
      rw [if_neg (fun less => short (limit.mp less)), State.packets_current]
      exact congrArg some packet
  · by_cases popping : source.pc = .rxPop
    · have nonempty : source.rx.packets.queue ≠ [] := by
        apply List.ne_nil_of_length_pos
        change 0 < source.rx.queued.length
        rw [source.rx.queued_length]
        exact below.live.reading.pop popping
      calc (ysUartIrqHandler source (some byte) txDone now).packets
          = (source.rx.receiveByte byte now).packets.pop := if_pos popping
        _ = source.rx.packets.pop.receive 20 byte := by
              rw [received, Packets.pop_receive nonempty]
        _ = source.packets.receive 20 byte := by
              rw [State.packets, if_pos popping]
    · calc (ysUartIrqHandler source (some byte) txDone now).packets
          = (source.rx.receiveByte byte now).packets := if_neg popping
        _ = source.packets.receive 20 byte := by
              rw [received, State.packets, if_neg popping]

/-- The idle flush is the packetizer's `close` when the idle time has passed. -/
theorem packet_step_flush {source : State} (streaming : Streaming source) (now : Nat)
    (pc : source.pc = .idleFlush)
    (good : CommitsBelow ⟨source, .statement now,
      { source with rx := source.rx.idleFlush now, pc := .rxGet }⟩) :
    PacketStep ⟨source, .statement now,
      { source with rx := source.rx.idleFlush now, pc := .rxGet }⟩ := by
  have below := streaming.below
  have sound := below.live.sound
  have before : source.pc ≠ .rxPop := by
    rw [pc]
    decide
  by_cases expired : source.rx.idleExpired now = true
  · have closes := closesPacket_flush pc expired
    have room := below.closes good closes
    have flushed : source.rx.idleFlush now = source.rx.closePacket := if_pos expired
    have same : source.packets = source.rx.packets := if_neg before
    refine .close rfl rfl ?_ ?_ ?_
    · intro empty
      rw [State.packets_current, sound.assembling_eq_nil_iff] at empty
      have pending := (sound.pending (Rx.idleExpired_armed expired)).1
      rw [empty] at pending
      exact absurd pending (by decide)
    · rw [committedPacket, if_pos ⟨closes, below.room⟩, State.packets_current]
      dsimp only
      rw [flushed]
      exact congrArg some (sound.disarm.closePacket_packetAt room)
    · calc State.packets { source with rx := source.rx.idleFlush now, pc := .rxGet }
          = (source.rx.idleFlush now).packets := if_neg (by simp)
        _ = source.packets.close := by
              rw [flushed, sound.disarm.closePacket_packets room, same]
  · have unchanged : source.rx.idleFlush now = source.rx := if_neg expired
    have quiet : closesPacket source (.statement now) = false := by
      rw [closesPacket, Bool.eq_false_iff.mpr expired, Bool.and_false]
    refine .keep rfl rfl (committedPacket_none quiet) (State.packets_eq ?_ before (by simp))
    rw [unchanged]

/-- A handler that returns has seen the oldest unread packet. -/
theorem Streaming.presented {s : State} (streaming : Streaming s) {fp : Nat} {len : UInt8}
    (pc : s.pc = .recvHandler fp len) :
    ∃ rest, s.packets.queue = Cells.window s.rx.cells (fp + 2) len.toNat :: rest := by
  have reading := streaming.below.live.reading
  rw [Reading, pc] at reading
  have length := streaming.presenting fp len pc
  have same : s.packets = s.rx.packets := if_neg (by rw [pc]; simp)
  refine ⟨s.rx.pop.queued, ?_⟩
  rw [same]
  change s.rx.queued = _
  rw [Rx.queued_cons reading.1, length, reading.2]
  rfl

/-- A packet at the handler fits a notification. -/
theorem Streaming.presented_length {s : State} (streaming : Streaming s) {fp : Nat} {len : UInt8}
    (pc : s.pc = .recvHandler fp len) : len.toNat ≤ 20 := by
  have reading := streaming.below.live.reading
  rw [Reading, pc] at reading
  have bounds := streaming.below.live.sound.committed 0 reading.1
    (Rx.not_aliased_of_room streaming.below.room reading.1)
  rw [← reading.2] at bounds
  rw [streaming.presenting fp len pc, payload_length (by omega)]
  omega

/-- No step changes the packet at the handler. -/
theorem Streaming.presented_kept {source target : State} {event : Event}
    (streaming : Streaming source) (taken : step source event = some target)
    (good : CommitsBelow ⟨source, event, target⟩) {fp : Nat} {len : UInt8}
    (pc : source.pc = .recvHandler fp len) :
    Cells.window target.rx.cells (fp + 2) len.toNat =
      Cells.window source.rx.cells (fp + 2) len.toNat := by
  have reading := streaming.below.live.reading
  rw [Reading, pc] at reading
  have short := streaming.presented_length pc
  have kept := preserved_step streaming.below taken good 0 reading.1
  rw [← reading.2] at kept
  refine Cells.window_congr fun address first last => ?_
  obtain ⟨offset, rfl⟩ := Nat.exists_eq_add_of_le first
  rw [Nat.add_assoc]
  exact kept (2 + offset) (by omega)

theorem packet_step {source target : State} {event : Event} (streaming : Streaming source)
    (taken : step source event = some target) (good : CommitsBelow ⟨source, event, target⟩) :
    PacketStep ⟨source, event, target⟩ := by
  cases step_cases taken with
  | irq byte txDone now =>
      cases byte with
      | none => exact .keep rfl rfl (committedPacket_none rfl) rfl
      | some byte => exact packet_step_byte streaming byte txDone now good
  | idleFlush now pc => exact packet_step_flush streaming now pc good
  | handlerDone fp len pc =>
      obtain ⟨rest, oldest⟩ := streaming.presented pc
      refine .deliver _ rest rfl (handlerCall_returned pc) (committedPacket_none rfl) oldest ?_
      have before : source.packets = source.rx.packets := if_neg (by rw [pc]; simp)
      rw [before]
      exact if_pos rfl
  | handlerRefused ret fp len pc refused =>
      obtain ⟨rest, oldest⟩ := streaming.presented pc
      refine .refuse _ rest ret rfl refused (handlerCall_returned pc) (committedPacket_none rfl)
        oldest ?_
      exact State.packets_eq rfl (by rw [pc]; simp) (by simp)
  | rxPop now pc =>
      refine .keep rfl rfl (committedPacket_none (closesPacket_statement pc (by simp))) ?_
      have some := streaming.below.live.reading.pop pc
      calc State.packets { source with rx := source.rx.pop, pc := .txGet }
          = source.rx.pop.packets := if_neg (by simp)
        _ = source.packets := by
              rw [Rx.packets_pop some, State.packets, if_pos pc]
  | process pc =>
      exact .keep rfl rfl (committedPacket_none rfl)
        (State.packets_eq rfl (by rw [pc]; simp) (by simp))
  | send | attWrite => exact .keep rfl rfl (committedPacket_none rfl) rfl
  | setBaud baud pc =>
      obtain ⟨idle, rx⟩ := ysUartSetBaud_rx source baud
      refine .keep rfl rfl (committedPacket_none rfl) (State.packets_eq ?_ ?_ ?_)
      · rw [rx]
        rfl
      · rw [pc]
        simp
      · rw [ysUartSetBaud_pc, pc]
        simp
  | rxGet _ _ pc | rxEmpty _ pc | recvCall _ _ pc | txGet _ _ pc | txEmpty _ pc | txBusy _ _ pc
  | txFree _ _ pc | kmaTooLong _ _ pc | kmaLen _ _ pc | kmaBusy _ _ pc | kmaFree _ _ pc
  | raiseBusyFlag _ _ pc | armDelay _ _ pc | startTx _ _ pc | txPop _ _ pc =>
      exact .keep rfl rfl (committedPacket_none (closesPacket_statement pc (by simp)))
        (State.packets_eq rfl (by rw [pc]; simp) (by simp))

/-! ## Along a run -/

/-- The packets committed, in order. -/
def committedPackets (edges : List Transition) : List (List UInt8) :=
  edges.filterMap committedPacket

theorem received_last (edges : List Transition) (edge : Transition) :
    received (edges ++ [edge]) = received edges ++ edge.event.byte.toList :=
  filterMap_last _ edges edge

theorem committedPackets_last (edges : List Transition) (edge : Transition) :
    committedPackets (edges ++ [edge]) =
      committedPackets edges ++ (committedPacket edge).toList :=
  filterMap_last _ edges edge

theorem handlerCalls_last (edges : List Transition) (edge : Transition) :
    handlerCalls (edges ++ [edge]) = handlerCalls edges ++ (handlerCall edge).toList :=
  filterMap_last _ edges edge

theorem delivered_none (edges : List Transition) {edge : Transition}
    (noCall : handlerCall edge = none) : delivered (edges ++ [edge]) = delivered edges := by
  rw [delivered, handlerCalls_last, noCall, Option.toList_none, List.append_nil, delivered]

theorem delivered_some (edges : List Transition) {edge : Transition} {payload : List UInt8}
    {ret : Int} (call : handlerCall edge = some (payload, ret)) :
    delivered (edges ++ [edge]) = delivered edges ++ if ret = 0 then [payload] else [] := by
  have last : [(payload, ret)].filterMap (fun call => if call.2 = 0 then some call.1 else none) =
      if ret = 0 then [payload] else [] := by
    by_cases accepted : ret = 0 <;> simp [accepted]
  rw [delivered, handlerCalls_last, call, Option.toList_some, List.filterMap_append, last, delivered]

/-- What the run so far and the state it reached say together. -/
structure Streamed (edges : List Transition) (final : State) : Prop where
  bytes : (delivered edges).flatten ++ final.packets.stream = received edges
  bounded : final.packets.Bounded 20
  committed : delivered edges ++ final.packets.queue = committedPackets edges
  calls : ∀ call ∈ handlerCalls edges, 1 ≤ call.1.length ∧ call.1.length ≤ 20
  retried : (handlerCalls edges).IsChain fun earlier later =>
    earlier.2 ≠ 0 → later.1 = earlier.1
  refused : ∀ call, (handlerCalls edges).getLast? = some call → call.2 ≠ 0 →
    final.packets.queue.head? = some call.1

section Step

variable {edges : List Transition} {edge : Transition}

/-- An edge without a handler call appends what it received and what it committed. -/
theorem Streamed.quiet (streamed : Streamed edges edge.source) (noCall : handlerCall edge = none)
    (stream : edge.target.packets.stream = edge.source.packets.stream ++ edge.event.byte.toList)
    (bounded : edge.target.packets.Bounded 20)
    (queue : edge.target.packets.queue =
      edge.source.packets.queue ++ (committedPacket edge).toList) :
    Streamed (edges ++ [edge]) edge.target := by
  have calls : handlerCalls (edges ++ [edge]) = handlerCalls edges := by
    rw [handlerCalls_last, noCall, Option.toList_none, List.append_nil]
  refine ⟨?_, bounded, ?_, ?_, ?_, ?_⟩
  · rw [delivered_none edges noCall, stream, ← List.append_assoc, streamed.bytes, received_last]
  · rw [delivered_none edges noCall, queue, ← List.append_assoc, streamed.committed,
      committedPackets_last]
  · rw [calls]
    exact streamed.calls
  · rw [calls]
    exact streamed.retried
  · intro call last refused
    rw [calls] at last
    rw [queue, List.head?_append, streamed.refused call last refused]
    rfl

/-- An edge with a handler call presents the oldest packet, again if it was just refused. -/
theorem Streamed.called {payload : List UInt8} {rest : List (List UInt8)} {ret : Int}
    (streamed : Streamed edges edge.source) (silent : edge.event.byte = none)
    (call : handlerCall edge = some (payload, ret)) (uncommitted : committedPacket edge = none)
    (oldest : edge.source.packets.queue = payload :: rest)
    (packets : edge.target.packets =
      if ret = 0 then edge.source.packets.pop else edge.source.packets) :
    Streamed (edges ++ [edge]) edge.target := by
  have calls : handlerCalls (edges ++ [edge]) = handlerCalls edges ++ [(payload, ret)] := by
    rw [handlerCalls_last, call, Option.toList_some]
  have sameBytes : received (edges ++ [edge]) = received edges := by
    rw [received_last, silent, Option.toList_none, List.append_nil]
  have sameCommits : committedPackets (edges ++ [edge]) = committedPackets edges := by
    rw [committedPackets_last, uncommitted, Option.toList_none, List.append_nil]
  have popped : edge.source.packets.pop.queue = rest := by
    rw [Packets.pop, oldest, List.tail_cons]
  refine ⟨?_, ?_, ?_, ?_, ?_, ?_⟩
  · rw [delivered_some edges call, packets, sameBytes, ← streamed.bytes]
    by_cases accepted : ret = 0
    · rw [if_pos accepted, if_pos accepted, List.flatten_append, List.flatten_singleton,
        List.append_assoc, Packets.stream_pop oldest]
    · rw [if_neg accepted, if_neg accepted, List.append_nil]
  · rw [packets]
    split
    · exact streamed.bounded.pop
    · exact streamed.bounded
  · rw [delivered_some edges call, packets, sameCommits, ← streamed.committed]
    by_cases accepted : ret = 0
    · rw [if_pos accepted, if_pos accepted, popped, oldest, List.append_assoc,
        List.singleton_append]
    · rw [if_neg accepted, if_neg accepted, List.append_nil]
  · have member : payload ∈ edge.source.packets.queue := by
      rw [oldest]
      exact List.mem_cons_self
    rw [calls]
    exact forall_mem_last streamed.calls (streamed.bounded.queue payload member)
  · rw [calls, List.isChain_append]
    refine ⟨streamed.retried, List.isChain_singleton _, fun earlier last later first refused => ?_⟩
    have head := streamed.refused earlier last refused
    rw [oldest, List.head?_cons, Option.some.injEq] at head
    rw [List.head?_cons, Option.mem_some_iff] at first
    rw [← first]
    exact head
  · intro other last refused
    rw [calls, List.getLast?_append_of_ne_nil _ (List.cons_ne_nil _ _), List.getLast?_singleton,
      Option.some.injEq] at last
    subst last
    rw [packets, if_neg refused, oldest, List.head?_cons]

theorem Streamed.step (streamed : Streamed edges edge.source) (operation : PacketStep edge) :
    Streamed (edges ++ [edge]) edge.target := by
  cases operation with
  | keep silent noCall uncommitted packets =>
      apply streamed.quiet noCall
      · rw [packets, silent, Option.toList_none, List.append_nil]
      · rw [packets]
        exact streamed.bounded
      · rw [packets, uncommitted, Option.toList_none, List.append_nil]
  | receive byte arrived noCall committed packets =>
      apply streamed.quiet noCall
      · rw [packets, Packets.stream_receive, arrived, Option.toList_some]
      · rw [packets]
        exact streamed.bounded.receive byte
      · rw [packets, committed]
        unfold Packets.receive
        split
        · rw [Option.toList_none, List.append_nil, Packets.append]
        · rw [Option.toList_some, Packets.close, Packets.append]
  | close silent noCall filled committed packets =>
      apply streamed.quiet noCall
      · rw [packets, Packets.stream_close, silent, Option.toList_none, List.append_nil]
      · rw [packets]
        exact streamed.bounded.close filled
      · rw [packets, committed, Option.toList_some, Packets.close]
  | deliver payload rest silent call uncommitted oldest packets =>
      apply streamed.called silent call uncommitted oldest
      rw [packets, if_pos rfl]
  | refuse payload rest ret silent refused call uncommitted oldest packets =>
      apply streamed.called silent call uncommitted oldest
      rw [packets, if_neg refused]

end Step

theorem init_packets (baud : UInt8) : (ysUartInit powerOn baud).packets = ⟨[], []⟩ := by
  obtain ⟨idle, rx⟩ := init_rx baud
  have same : (ysUartInit powerOn baud).packets = (ysUartInit powerOn baud).rx.packets :=
    if_neg (by rw [init_pc]; decide)
  have none : powerOn.rx.start.queued = [] :=
    List.length_eq_zero_iff.mp ((Rx.queued_length _).trans (by decide))
  have empty : powerOn.rx.start.assembling = [] :=
    start_sound.assembling_eq_nil_iff.mpr (by decide)
  rw [same, rx]
  change (⟨powerOn.rx.start.queued, powerOn.rx.start.assembling⟩ : Packets UInt8) = _
  rw [none, empty]

theorem streamed_run {baud : UInt8} {edges : List Transition} {final : State}
    (run : UartRun baud edges final) (good : ∀ edge ∈ edges, CommitsBelow edge) :
    Streamed edges final := by
  induction run with
  | refl =>
      have empty := init_packets baud
      refine ⟨?_, ⟨?_, ?_⟩, ?_, ?_, List.isChain_nil, ?_⟩
      · rw [empty]
        rfl
      · rw [empty]
        exact fun packet member => nomatch member
      · rw [empty]
        decide
      · rw [empty]
        rfl
      · exact fun call member => nomatch member
      · exact fun call last => nomatch last
  | tail run taken ih =>
      have earlier := fun edge member => good edge (List.mem_append_left _ member)
      have last := good _ List.mem_concat_self
      have streaming := run.preserves (init_streaming baud) streaming_step earlier
      exact (ih earlier).step (packet_step streaming taken last)

/-! ## The idle timeout -/

def byteTime (edge : Transition) : Option Nat :=
  match edge.event with
  | .irq (some _) _ now => some now
  | _ => none

/-- When the last byte of a run arrived. -/
def lastByteTime (edges : List Transition) : Option Nat :=
  (edges.filterMap byteTime).getLast?

theorem lastByteTime_none (edges : List Transition) {edge : Transition}
    (silent : edge.event.byte = none) : lastByteTime (edges ++ [edge]) = lastByteTime edges := by
  have untimed : byteTime edge = none := by
    unfold byteTime
    split
    · next shape => rw [shape] at silent; cases silent
    · rfl
  rw [lastByteTime, filterMap_last, untimed, Option.toList_none, List.append_nil, lastByteTime]

theorem lastByteTime_some (edges : List Transition) {edge : Transition} {now : Nat}
    (timed : byteTime edge = some now) : lastByteTime (edges ++ [edge]) = some now := by
  rw [lastByteTime, filterMap_last, timed, Option.toList_some,
    List.getLast?_append_of_ne_nil _ (List.cons_ne_nil _ _), List.getLast?_singleton]

/-- A pending tick is the stamp of the last byte, which read the clock. -/
def Stamped (edges : List Transition) (s : State) : Prop :=
  s.rx.uartRxTick ≠ 0 → ∃ last, lastByteTime edges = some last ∧
    s.rx.uartRxTick = Clock.stamp last ∧ last ∈ edges.filterMap clockReading

theorem closePacket_tick (rx : Rx) : rx.closePacket.uartRxTick = 0 := by
  unfold Rx.closePacket
  split <;> rfl

theorem Stamped.keep {edges : List Transition} {edge : Transition}
    (stamped : Stamped edges edge.source) (silent : edge.event.byte = none)
    (tick : edge.target.rx.uartRxTick = edge.source.rx.uartRxTick) :
    Stamped (edges ++ [edge]) edge.target := by
  intro armed
  rw [tick] at armed ⊢
  obtain ⟨last, time, stamp, member⟩ := stamped armed
  refine ⟨last, (lastByteTime_none edges silent).trans time, stamp, ?_⟩
  rw [List.filterMap_append]
  exact List.mem_append_left _ member

theorem stamped_step {edges : List Transition} {source target : State} {event : Event}
    (stamped : Stamped edges source) (taken : step source event = some target) :
    Stamped (edges ++ [⟨source, event, target⟩]) target := by
  cases step_rx taken with
  | keep quiet silent idle rx => exact stamped.keep silent (by rw [rx])
  | byte byte txDone now rx =>
      by_cases short : (source.rx.storeByte byte).length < 22
      · intro armed
        have reading : clockReading ⟨source, .irq (some byte) txDone now, target⟩ = some now :=
          if_pos short
        refine ⟨now, lastByteTime_some edges rfl, ?_, ?_⟩
        · rw [rx, Rx.receiveByte, if_pos short]
          rfl
        · rw [filterMap_last, reading]
          exact List.mem_concat_self
      · intro armed
        rw [rx, Rx.receiveByte, if_neg short] at armed
        exact absurd (closePacket_tick _) armed
  | flush now pc rx =>
      by_cases expired : source.rx.idleExpired now = true
      · intro armed
        rw [rx, Rx.idleFlush, if_pos expired] at armed
        exact absurd (closePacket_tick _) armed
      · refine stamped.keep rfl ?_
        change target.rx.uartRxTick = source.rx.uartRxTick
        rw [rx, Rx.idleFlush, if_neg expired]
  | pop now pc rx => exact stamped.keep rfl (by rw [rx]; rfl)

theorem stamped_run {baud : UInt8} {edges : List Transition} {final : State}
    (run : UartRun baud edges final) : Stamped edges final := by
  induction run with
  | refl =>
      obtain ⟨idle, rx⟩ := init_rx baud
      intro armed
      rw [rx] at armed
      exact absurd rfl armed
  | tail run taken ih => exact stamped_step ih taken

theorem idle_step {source target : State} {event : Event}
    (bound : source.rx.uartRxIdle.toNat ≤ 10416) (taken : step source event = some target) :
    target.rx.uartRxIdle.toNat ≤ 10416 := by
  rcases step_idle taken with same | ⟨known, idle⟩
  · rw [same]
    exact bound
  · rw [idle]
    exact known.rxIdle_le

theorem idle_kept {start final : State} {edges : List Transition}
    (bound : start.rx.uartRxIdle.toNat ≤ 10416) (run : Run step start edges final) :
    final.rx.uartRxIdle.toNat ≤ 10416 :=
  @Run.invariant _ _ _ _ _ _ (fun s => s.rx.uartRxIdle.toNat ≤ 10416) bound idle_step run

theorem idle_run {baud : UInt8} {edges : List Transition} {final : State}
    (run : UartRun baud edges final) : final.rx.uartRxIdle.toNat ≤ 10416 := by
  refine idle_kept ?_ run
  change (ysUartSetBaud { powerOn with rx := powerOn.rx.start } baud).rx.uartRxIdle.toNat ≤ _
  rcases ysUartSetBaud_idle { powerOn with rx := powerOn.rx.start } baud with same | ⟨known, idle⟩
  · rw [same]
    decide
  · rw [idle]
    exact known.rxIdle_le

/-- The idle test fires only after the idle time has really passed since the stamped tick. -/
theorem idleExpired_elapsed {rx : Rx} {now last : Nat} (bound : rx.uartRxIdle.toNat ≤ 10416)
    (stamp : rx.uartRxTick = Clock.stamp last) (ordered : last < now)
    (expired : rx.idleExpired now = true) : last + 16 * rx.uartRxIdle.toNat < now := by
  rw [Rx.idleExpired, Bool.and_eq_true, clockTimeExceed_iff (by omega), stamp] at expired
  have elapsed := Clock.reading_sub_stamp_le ordered
  have exceeded := expired.2
  rw [clockTime] at exceeded
  omega

/-- A packet of fewer than 20 bytes is committed by the idle flush, after the idle time. -/
theorem short_packet_timed {baud : UInt8} {before after : List Transition} {edge : Transition}
    {final : State} (run : UartRun baud (before ++ edge :: after) final)
    (increasing : Increasing (before ++ edge :: after))
    (good : ∀ other ∈ before ++ edge :: after, CommitsBelow other) {packet : List UInt8}
    (committed : committedPacket edge = some packet) (short : packet.length < 20) :
    ∃ now last, edge.event = .statement now ∧ lastByteTime before = some last ∧
      last + 16 * edge.source.rx.uartRxIdle.toNat < now := by
  obtain ⟨source, event, target⟩ := edge
  obtain ⟨first, taken, _⟩ := run.split
  have earlier := fun other member => good other (List.mem_append_left _ member)
  have own := good ⟨source, event, target⟩ (List.mem_append_right _ List.mem_cons_self)
  have streaming := first.preserves (init_streaming baud) streaming_step earlier
  obtain ⟨closes, _⟩ : commits ⟨source, event, target⟩ := by
    by_contra uncommitted
    rw [committedPacket, if_neg uncommitted] at committed
    cases committed
  cases step_rx taken with
  | keep quiet silent idle rx =>
      rw [quiet] at closes
      cases closes
  | byte byte txDone now rx =>
      cases packet_step streaming taken own with
      | receive value arrived noCall shape packets =>
          rw [shape] at committed
          split at committed
          · cases committed
          · next long =>
              cases committed
              rw [List.length_append, List.length_singleton] at short
              exact absurd short long
      | keep silent | close silent | deliver _ _ silent | refuse _ _ _ silent => cases silent
  | flush now pc rx =>
      rw [closesPacket, Bool.and_eq_true] at closes
      have armed := Rx.idleExpired_armed closes.2
      obtain ⟨last, time, stamp, member⟩ := stamped_run first armed
      have ordered := increasing.lt member (clockReading_idleFlush pc armed)
      exact ⟨now, last, rfl, time, idleExpired_elapsed (idle_run first) stamp ordered closes.2⟩
  | pop now pc rx =>
      rw [closesPacket_statement pc (by decide)] at closes
      cases closes

/--
Stream fidelity below overrun: accepted payloads, queued payloads and bytes
under assembly make up the received bytes; the payloads are the committed
packets in order, of 1 to 20 bytes; a refused payload is presented again; and
a short packet is committed only after the idle time without a byte.
-/
theorem receive_stream {baud : UInt8} {edges : List Transition} {final : State}
    (run : UartRun baud edges final) (increasing : Increasing edges)
    (good : ∀ edge ∈ edges, CommitsBelow edge) :
    (delivered edges).flatten ++ final.packets.queue.flatten ++ final.rx.assembling =
        received edges ∧
      delivered edges ++ final.packets.queue = committedPackets edges ∧
      (∀ packet ∈ final.packets.queue, 1 ≤ packet.length ∧ packet.length ≤ 20) ∧
      (∀ call ∈ handlerCalls edges, 1 ≤ call.1.length ∧ call.1.length ≤ 20) ∧
      ((handlerCalls edges).IsChain fun earlier later => earlier.2 ≠ 0 → later.1 = earlier.1) ∧
      ∀ before edge after packet, edges = before ++ edge :: after →
        committedPacket edge = some packet → packet.length < 20 →
        ∃ now last, edge.event = .statement now ∧ lastByteTime before = some last ∧
          last + 16 * edge.source.rx.uartRxIdle.toNat < now := by
  have streamed := streamed_run run good
  refine ⟨?_, streamed.committed, streamed.bounded.queue, streamed.calls, streamed.retried, ?_⟩
  · rw [List.append_assoc, ← State.packets_current]
    exact streamed.bytes
  · rintro before edge after packet rfl committed short
    exact short_packet_timed run increasing good committed short

/-- Two bytes, an idle flush, a refusal with a byte arriving meanwhile, and an acceptance. -/
def refusedOnce : List Event :=
  [.irq (some 1) false 1000, .irq (some 2) false 2400,
    .process, .statement 3000, .statement 3001, .statement 3002,
    .process, .statement 20000, .statement 20001, .statement 20002, .handlerReturn (-1),
    .statement 20003,
    .process, .statement 21000, .statement 21001, .statement 21002, .irq (some 3) false 22000,
    .handlerReturn 0, .statement 22001, .statement 22002]

set_option maxRecDepth 100000 in
theorem receive_stream_refusedOnce :
    ∃ edges final, edges.map Edge.event = refusedOnce ∧ UartRun 4 edges final ∧
      handlerCalls edges = [([1, 2], -1), ([1, 2], 0)] ∧
      [1, 2] ++ final.packets.queue.flatten ++ final.rx.assembling = received edges := by
  have enabled : (follow step (ysUartInit powerOn 4) refusedOnce).isSome = true := by
    decide +kernel
  obtain ⟨final, labels, run⟩ := enabled_run enabled
  have calls : handlerCalls (trace step (ysUartInit powerOn 4) refusedOnce) =
      [([1, 2], -1), ([1, 2], 0)] := by
    decide +kernel
  have increasing : Increasing (trace step (ysUartInit powerOn 4) refusedOnce) := by
    rw [Increasing]
    decide +kernel
  have quiet : (trace step (ysUartInit powerOn 4) refusedOnce).all (fun edge =>
      !decide (commits edge) || decide (edge.source.rx.backlog < 63)) = true := by
    decide +kernel
  have good : ∀ edge ∈ trace step (ysUartInit powerOn 4) refusedOnce, CommitsBelow edge := by
    intro edge member commit
    have checked := List.all_eq_true.mp quiet edge member
    simpa [commit] using checked
  refine ⟨_, final, labels, run, calls, ?_⟩
  have payloads : (delivered (trace step (ysUartInit powerOn 4) refusedOnce)).flatten = [1, 2] := by
    rw [delivered, calls]
    rfl
  rw [← payloads]
  exact (receive_stream run increasing good).1

end Ser2Ble.YsUart
