import Ser2Ble.YsUart.ReceiveStream

/-!
# Idle gaps between bytes

The interrupt appends a byte to the packet under assembly whatever the time
since the byte before it; only the idle test of `ys_uart_process` closes a
packet.  Two consecutive bytes are therefore separated exactly when that test
runs between them and reads a clock that has moved far enough.
-/

namespace Ser2Ble.YsUart

open Library Proj

/-- The FIFO never holds 64 packets. -/
def NeverFull (edges : List Transition) : Prop :=
  ∀ edge ∈ edges, edge.target.rx.backlog < 64

/-- An idle test that reads more than the idle time past the tick stamped at `first`. -/
def SeesGap (first : Nat) (check : Transition) : Prop :=
  ∃ now, check.event = .statement now ∧ check.source.pc = .idleFlush ∧
    16 * check.source.rx.uartRxIdle.toNat < (now - (first ||| 1)) % 2 ^ 32

theorem NeverFull.commitsBelow {baud : UInt8} {edges : List Transition} {final : State}
    (run : UartRun baud edges final) (neverFull : NeverFull edges) :
    ∀ edge ∈ edges, CommitsBelow edge := by
  intro edge member commit
  obtain ⟨rx, target, backlog, _⟩ := commits_target (run.taken member) commit
  have room := commit.2
  have bound := neverFull edge member
  rw [target, Rx.nextSlot_backlog (by omega)] at bound
  omega

/-! ## Edges without a byte -/

/-- Without a byte the rest of the packetizer stays, or it is closed and committed. -/
theorem PacketStep.silent {edge : Transition} (operation : PacketStep edge)
    (silent : edge.event.byte = none) :
    (committedPacket edge = none ∧
      edge.target.packets.current = edge.source.packets.current) ∨
    (committedPacket edge = some edge.source.packets.current ∧
      edge.source.packets.current ≠ [] ∧ edge.target.packets.current = []) := by
  cases operation with
  | keep _ _ uncommitted packets => exact Or.inl ⟨uncommitted, by rw [packets]⟩
  | receive byte arrived =>
      rw [silent] at arrived
      cases arrived
  | close _ _ filled committed packets =>
      exact Or.inr ⟨committed, filled, by rw [packets, Packets.close]⟩
  | deliver payload rest _ _ uncommitted _ packets =>
      exact Or.inl ⟨uncommitted, by rw [packets, Packets.pop]⟩
  | refuse payload rest ret _ _ _ uncommitted _ packets => exact Or.inl ⟨uncommitted, by rw [packets]⟩

theorem tick_kept {source target : State} {event : Event}
    (taken : step source event = some target) (silent : event.byte = none)
    (stays : closesPacket source event = false) :
    target.rx.uartRxTick = source.rx.uartRxTick := by
  cases step_rx taken with
  | keep _ _ idle rx => rw [rx]
  | byte byte txDone now rx => cases silent
  | flush now pc rx =>
      rw [closesPacket, decide_eq_true pc, Bool.true_and] at stays
      rw [rx, Rx.idleFlush, stays]
      rfl
  | pop now pc rx =>
      rw [rx]
      rfl

/-- With the tick of a byte pending, an edge closes the packet exactly when it sees the gap. -/
theorem closes_iff_seesGap {source target : State} {event : Event} {first : Nat}
    (silent : event.byte = none) (idle : source.rx.uartRxIdle.toNat ≤ 10416)
    (stamp : source.rx.uartRxTick = Clock.stamp first)
    (later : ∀ now, clockReading ⟨source, event, target⟩ = some now → first < now) :
    closesPacket source event = true ↔ SeesGap first ⟨source, event, target⟩ := by
  have armed : source.rx.uartRxTick ≠ 0 := by
    rw [stamp]
    exact Clock.stamp_ne_zero first
  have atTest : ∀ now, event = .statement now → source.pc = .idleFlush →
      (source.rx.idleExpired now = true ↔
        16 * source.rx.uartRxIdle.toNat < (now - (first ||| 1)) % 2 ^ 32) := by
    rintro now rfl pc
    have difference := Clock.reading_sub_stamp (later now (clockReading_idleFlush pc armed))
    rw [Rx.idleExpired, decide_eq_true armed, Bool.true_and, clockTimeExceed_iff (by omega), stamp,
      clockTime, difference, Nat.mul_comm]
  constructor
  · intro closes
    cases event with
    | irq byte txDone now =>
        cases byte with
        | none => cases closes
        | some byte => cases silent
    | statement now =>
        rw [closesPacket, Bool.and_eq_true, decide_eq_true_iff] at closes
        exact ⟨now, rfl, closes.1, (atTest now rfl closes.1).mp closes.2⟩
    | process | handlerReturn | send | attWrite | setBaud => cases closes
  · rintro ⟨now, rfl, pc, gap⟩
    exact closesPacket_flush pc ((atTest now rfl pc).mpr gap)

/-! ## Runs without a byte -/

/-- What a run without bytes makes of the bytes that were under assembly when it began. -/
inductive GapOutcome (held : List UInt8) (first : Nat) (middle : List Transition) (s : State) :
    Prop where
  | pending (tick : s.rx.uartRxTick = Clock.stamp first) (current : s.packets.current = held)
      (uncommitted : committedPackets middle = [])
      (unseen : ∀ check ∈ middle, ¬ SeesGap first check) : GapOutcome held first middle s
  | closed (current : s.packets.current = []) (committed : committedPackets middle = [held])
      (seen : ∃ check ∈ middle, SeesGap first check) : GapOutcome held first middle s

/-- One more edge without a byte. -/
theorem GapOutcome.step {held : List UInt8} {first : Nat} {middle : List Transition}
    {source target : State} {event : Event} (outcome : GapOutcome held first middle source)
    (streaming : Streaming source) (taken : step source event = some target)
    (good : CommitsBelow ⟨source, event, target⟩) (silent : event.byte = none)
    (idle : source.rx.uartRxIdle.toNat ≤ 10416)
    (later : ∀ now, clockReading ⟨source, event, target⟩ = some now → first < now) :
    GapOutcome held first (middle ++ [⟨source, event, target⟩]) target := by
  have operation := (packet_step streaming taken good).silent silent
  have grown := committedPackets_last middle ⟨source, event, target⟩
  cases outcome with
  | pending tick current uncommitted unseen =>
      have exactly := @closes_iff_seesGap source target event first silent idle tick later
      by_cases closes : closesPacket source event = true
      · rcases operation with ⟨none, _⟩ | ⟨committed, _, empty⟩
        · rw [committedPacket, if_pos ⟨closes, streaming.below.room⟩] at none
          cases none
        · refine .closed empty ?_ ⟨_, ?_, exactly.mp closes⟩
          · rw [grown, uncommitted, committed, Option.toList_some, List.nil_append]
            exact congrArg (fun packet => [packet]) current
          · exact List.mem_concat_self
      · have stays := Bool.eq_false_iff.mpr closes
        have none : committedPacket ⟨source, event, target⟩ = none := committedPacket_none stays
        have same : target.packets.current = source.packets.current := by
          rcases operation with ⟨_, same⟩ | ⟨committed, _⟩
          · exact same
          · rw [none] at committed
            cases committed
        refine .pending ((tick_kept taken silent stays).trans tick) (same.trans current) ?_ ?_
        · rw [grown, uncommitted, none]
          rfl
        · exact forall_mem_last unseen fun gap => closes (exactly.mpr gap)
  | closed current committed seen =>
      obtain ⟨check, member, gap⟩ := seen
      rcases operation with ⟨none, same⟩ | ⟨_, filled, _⟩
      · refine .closed (same.trans current) ?_ ⟨check, List.mem_append_left _ member, gap⟩
        rw [grown, committed, none]
        rfl
      · exact absurd current filled

theorem gap_run {start final : State} {middle : List Transition} {first : Nat}
    (streaming : Streaming start) (idle : start.rx.uartRxIdle.toNat ≤ 10416)
    (tick : start.rx.uartRxTick = Clock.stamp first) (run : Run step start middle final)
    (good : ∀ edge ∈ middle, CommitsBelow edge)
    (silent : ∀ edge ∈ middle, edge.event.byte = none)
    (later : ∀ edge ∈ middle, ∀ now, clockReading edge = some now → first < now) :
    GapOutcome start.packets.current first middle final := by
  induction run with
  | refl => exact .pending tick rfl rfl fun check member => nomatch member
  | tail run taken ih =>
      have goodEarlier := fun edge inside => good edge (List.mem_append_left _ inside)
      have outcome := ih goodEarlier
        (fun edge inside => silent edge (List.mem_append_left _ inside))
        (fun edge inside => later edge (List.mem_append_left _ inside))
      have before := run.preserves streaming streaming_step goodEarlier
      exact outcome.step before taken (good _ List.mem_concat_self)
        (silent _ List.mem_concat_self) (idle_kept idle run) (later _ List.mem_concat_self)

/-- Nothing is committed without a byte while nothing is under assembly. -/
theorem empty_run {start final : State} {middle : List Transition} (streaming : Streaming start)
    (empty : start.packets.current = []) (run : Run step start middle final)
    (good : ∀ edge ∈ middle, CommitsBelow edge)
    (silent : ∀ edge ∈ middle, edge.event.byte = none) :
    final.packets.current = [] ∧ committedPackets middle = [] := by
  induction run with
  | refl => exact ⟨empty, rfl⟩
  | tail run taken ih =>
      have goodEarlier := fun edge inside => good edge (List.mem_append_left _ inside)
      obtain ⟨current, committed⟩ := ih goodEarlier
        (fun edge inside => silent edge (List.mem_append_left _ inside))
      have before := run.preserves streaming streaming_step goodEarlier
      have operation := (packet_step before taken (good _ List.mem_concat_self)).silent
        (silent _ List.mem_concat_self)
      rcases operation with ⟨none, same⟩ | ⟨_, filled, _⟩
      · refine ⟨same.trans current, ?_⟩
        rw [committedPackets_last, committed, none]
        rfl
      · exact absurd current filled

/-! ## Two consecutive bytes -/

/-- A byte either joins the packet under assembly, stamping the tick, or completes it. -/
theorem byte_step {source target : State} {byte : UInt8} {txDone : Bool} {now : Nat}
    (streaming : Streaming source) (taken : step source (.irq (some byte) txDone now) = some target)
    (good : CommitsBelow ⟨source, .irq (some byte) txDone now, target⟩) :
    (closesPacket source (.irq (some byte) txDone now) = false →
      target.rx.uartRxTick = Clock.stamp now ∧
      clockReading ⟨source, .irq (some byte) txDone now, target⟩ = some now ∧
      committedPacket ⟨source, .irq (some byte) txDone now, target⟩ = none ∧
      target.packets.current = source.packets.current ++ [byte]) ∧
    (closesPacket source (.irq (some byte) txDone now) = true →
      19 ≤ source.packets.current.length ∧
      committedPacket ⟨source, .irq (some byte) txDone now, target⟩ =
        some (source.packets.current ++ [byte]) ∧
      target.packets.current = []) := by
  have room := streaming.below.room
  cases packet_step streaming taken good with
  | receive value arrived noCall committed packets =>
      cases arrived
      dsimp only at committed packets
      constructor
      · intro stays
        have none := @committedPacket_none ⟨source, .irq (some byte) txDone now, target⟩ stays
        have short : (source.rx.storeByte byte).length < 22 := by
          simpa [closesPacket] using stays
        refine ⟨?_, if_pos short, none, ?_⟩
        · cases Option.some.inj taken
          change (source.rx.receiveByte byte now).uartRxTick = _
          rw [Rx.receiveByte, if_pos short]
          rfl
        · rw [none] at committed
          split at committed
          · next few => rw [packets, Packets.receive, if_pos few, Packets.append]
          · cases committed
      · intro closes
        have some := committed
        rw [committedPacket, if_pos ⟨closes, room⟩] at some
        split at some
        · cases some
        · next many =>
            rw [if_neg many] at committed
            refine ⟨by omega, committed, ?_⟩
            rw [packets, Packets.receive, if_neg many, Packets.close]
  | keep silent | close silent | deliver _ _ silent | refuse _ _ _ silent => cases silent

/--
After a byte and a run without bytes: the byte ends a committed packet, or it
is the last byte under assembly.
-/
theorem between_bytes {baud : UInt8} {before middle : List Transition} {source target later : State}
    {a : UInt8} {txDone : Bool} {first : Nat}
    (run : UartRun baud (before ++ ⟨source, .irq (some a) txDone first, target⟩ :: middle) later)
    (increasing :
      Increasing (before ++ ⟨source, .irq (some a) txDone first, target⟩ :: middle))
    (good : ∀ edge ∈ before ++ ⟨source, .irq (some a) txDone first, target⟩ :: middle,
      CommitsBelow edge)
    (silent : ∀ edge ∈ middle, edge.event.byte = none) :
    ((closesPacket source (.irq (some a) txDone first) = true ∨
        ∃ check ∈ middle, SeesGap first check) ∧
      later.packets.current = [] ∧
      ∃ packet, (committedPackets
        (before ++ ⟨source, .irq (some a) txDone first, target⟩ :: middle)).getLast? =
          some packet ∧ packet.getLast? = some a) ∨
    (¬ (closesPacket source (.irq (some a) txDone first) = true ∨
        ∃ check ∈ middle, SeesGap first check) ∧
      later.packets.current.getLast? = some a) := by
  obtain ⟨earlier, taken, rest⟩ := run.split
  have inBefore := fun edge inside => good edge (List.mem_append_left _ inside)
  have own := good ⟨source, .irq (some a) txDone first, target⟩
    (List.mem_append_right _ List.mem_cons_self)
  have inMiddle := fun edge inside =>
    good edge (List.mem_append_right _ (List.mem_cons_of_mem _ inside))
  have streaming := earlier.preserves (init_streaming baud) streaming_step inBefore
  have committed : committedPackets
      (before ++ ⟨source, .irq (some a) txDone first, target⟩ :: middle) =
      committedPackets before ++
        (committedPacket ⟨source, .irq (some a) txDone first, target⟩).toList ++
        committedPackets middle := by
    rw [List.append_cons, ← committedPackets_last, committedPackets, List.filterMap_append]
    rfl
  have begin := streaming_step streaming taken own
  obtain ⟨joined, completed⟩ := byte_step streaming taken own
  cases closes : closesPacket source (.irq (some a) txDone first) with
  | true =>
      obtain ⟨_, commit, empty⟩ := completed closes
      obtain ⟨still, none⟩ := empty_run begin empty rest inMiddle silent
      refine Or.inl ⟨Or.inl rfl, still, source.packets.current ++ [a], ?_, List.getLast?_concat⟩
      rw [committed, commit, none, List.append_nil]
      exact List.getLast?_concat
  | false =>
      obtain ⟨tick, reading, none, grown⟩ := joined closes
      have after : ∀ edge ∈ middle, ∀ now, clockReading edge = some now → first < now := by
        intro edge inside now read
        obtain ⟨former, latter, rfl⟩ := List.append_of_mem inside
        rw [List.append_cons, ← List.append_assoc] at increasing
        refine increasing.lt ?_ read
        rw [List.filterMap_append, filterMap_last, reading]
        exact List.mem_append_left _ (List.mem_append_right _ List.mem_cons_self)
      cases gap_run begin (idle_step (idle_run earlier) taken) tick rest inMiddle silent after with
      | pending _ current _ unseen =>
          refine Or.inr ⟨?_, ?_⟩
          · rintro (impossible | ⟨check, inside, gap⟩)
            · cases impossible
            · exact unseen check inside gap
          · rw [current, grown]
            exact List.getLast?_concat
      | closed current commit seen =>
          refine Or.inl ⟨Or.inr seen, current, source.packets.current ++ [a], ?_,
            List.getLast?_concat⟩
          rw [committed, none, commit, grown]
          exact List.getLast?_concat

/-- The byte of an edge is the first payload byte of a packet. -/
def StartsPacket (edge : Transition) : Prop :=
  edge.source.rx.assembling = []

/--
Of two consecutive bytes the second starts a new packet exactly when the first
completed a packet or an idle test between them sees the gap.  Otherwise it is
appended to the packet that holds the first.
-/
theorem idle_gap_separates_iff {baud : UInt8} {before middle after : List Transition}
    {first second : Transition} {final : State} {a b : UInt8} {aDone bDone : Bool}
    {firstTime secondTime : Nat}
    (run : UartRun baud (before ++ first :: (middle ++ second :: after)) final)
    (increasing : Increasing (before ++ first :: (middle ++ second :: after)))
    (neverFull : NeverFull (before ++ first :: (middle ++ second :: after)))
    (firstByte : first.event = .irq (some a) aDone firstTime)
    (secondByte : second.event = .irq (some b) bDone secondTime)
    (consecutive : ∀ edge ∈ middle, edge.event.byte = none) :
    (StartsPacket second ↔ closesPacket first.source first.event = true ∨
      ∃ check ∈ middle, SeesGap firstTime check) ∧
    (StartsPacket second → second.target.rx.assembling = [b] ∧
      ∃ packet, (committedPackets (before ++ first :: middle)).getLast? = some packet ∧
        packet.getLast? = some a) ∧
    (¬ StartsPacket second → second.source.rx.assembling.getLast? = some a ∧
      (second.target.rx.assembling = second.source.rx.assembling ++ [b] ∨
        committedPacket second = some (second.source.rx.assembling ++ [b]))) ∧
    delivered (before ++ first :: (middle ++ second :: after)) ++ final.packets.queue =
      committedPackets (before ++ first :: (middle ++ second :: after)) := by
  have good := neverFull.commitsBelow run
  have streamed := streamed_run run good
  obtain ⟨source, event, target⟩ := first
  obtain ⟨later, laterEvent, laterTarget⟩ := second
  dsimp only at firstByte secondByte
  subst firstByte secondByte
  rw [← List.cons_append, ← List.append_assoc] at run increasing good
  obtain ⟨earlier, taken, _⟩ := run.split
  have inEarlier := fun edge inside => good edge (List.mem_append_left _ inside)
  have own := good ⟨later, .irq (some b) bDone secondTime, laterTarget⟩
    (List.mem_append_right _ List.mem_cons_self)
  have streaming := earlier.preserves (init_streaming baud) streaming_step inEarlier
  obtain ⟨joined, completed⟩ := byte_step streaming taken own
  rw [later.packets_current, laterTarget.packets_current] at joined completed
  have history := between_bytes earlier increasing.of_append inEarlier consecutive
  rw [later.packets_current] at history
  change (later.rx.assembling = [] ↔ _) ∧ (later.rx.assembling = [] → _) ∧
    (¬ later.rx.assembling = [] → _) ∧ _
  refine ⟨?_, ?_, ?_, streamed.committed⟩
  · rcases history with ⟨separated, empty, _⟩ | ⟨unseparated, last⟩
    · exact iff_of_true empty separated
    · refine iff_of_false (fun empty => ?_) unseparated
      rw [empty] at last
      cases last
  · intro empty
    refine ⟨?_, ?_⟩
    · cases closes : closesPacket later (.irq (some b) bDone secondTime) with
      | false =>
          rw [(joined closes).2.2.2, empty, List.nil_append]
      | true =>
          have long := (completed closes).1
          rw [empty] at long
          exact absurd long (by decide)
    · rcases history with ⟨_, _, packet⟩ | ⟨_, last⟩
      · exact packet
      · rw [empty] at last
        cases last
  · intro filled
    rcases history with ⟨_, empty, _⟩ | ⟨_, last⟩
    · exact absurd empty filled
    · refine ⟨last, ?_⟩
      cases closes : closesPacket later (.irq (some b) bDone secondTime) with
      | false => exact Or.inl (joined closes).2.2.2
      | true => exact Or.inr (completed closes).2.1

/-- Two bytes at 115200 baud with an idle test after the idle time between them. -/
def testedGap : List Event :=
  [.irq (some 1) false 1000, .process, .statement 20000, .irq (some 2) false 30000]

set_option maxRecDepth 100000 in
theorem idle_gap_separates_iff_testedGap :
    ∃ first middle second final, (first :: (middle ++ [second])).map Edge.event = testedGap ∧
      UartRun 4 (first :: (middle ++ [second])) final ∧
      (∃ check ∈ middle, SeesGap 1000 check) ∧ second.target.rx.assembling = [2] := by
  have enabled : (follow step (ysUartInit powerOn 4) testedGap).isSome = true := by
    decide +kernel
  obtain ⟨final, labels, run⟩ := enabled_run enabled
  have increasing : Increasing (trace step (ysUartInit powerOn 4) testedGap) := by
    rw [Increasing]
    decide +kernel
  have neverFull : NeverFull (trace step (ysUartInit powerOn 4) testedGap) := by
    rw [NeverFull]
    decide +kernel
  have fresh : ((trace step (ysUartInit powerOn 4) testedGap)[3]?.map fun edge =>
      edge.source.rx.assembling) = some [] := by
    decide +kernel
  have short : ((trace step (ysUartInit powerOn 4) testedGap)[0]?.map fun edge =>
      closesPacket edge.source edge.event) = some false := by
    decide +kernel
  obtain ⟨first, _, shape, firstByte, labels⟩ := List.map_eq_cons_iff.mp labels
  obtain ⟨call, _, rfl, callEvent, labels⟩ := List.map_eq_cons_iff.mp labels
  obtain ⟨check, _, rfl, checkEvent, labels⟩ := List.map_eq_cons_iff.mp labels
  obtain ⟨second, _, rfl, secondByte, labels⟩ := List.map_eq_cons_iff.mp labels
  cases List.map_eq_nil_iff.mp labels
  rw [shape] at run increasing neverFull fresh short
  have consecutive : ∀ edge ∈ [call, check], edge.event.byte = none := by
    simp [callEvent, checkEvent, Event.byte]
  have separated := @idle_gap_separates_iff 4 [] [call, check] [] first second final 1 2 false false
    1000 30000 run increasing neverFull firstByte secondByte consecutive
  have starts : StartsPacket second := Option.some.inj fresh
  have joins : closesPacket first.source first.event = false := Option.some.inj short
  refine ⟨first, [call, check], second, final, ?_, run, ?_, (separated.2.1 starts).1⟩
  · simp [firstByte, callEvent, checkEvent, secondByte, testedGap]
  · rcases separated.1.mp starts with closes | seen
    · rw [joins] at closes
      cases closes
    · exact seen

set_option maxRecDepth 100000 in
/--
Two bytes 99000 ticks apart, with an idle time of 13888 ticks and no idle test
between them, reach the handler as one packet.
-/
theorem idle_gap_merged :
    ∃ edges final, edges.map Edge.event =
        [.irq (some 1) false 1000, .irq (some 2) false 100000, .process, .statement 200000,
          .statement 200001, .statement 200002, .handlerReturn 0] ∧
      UartRun 4 edges final ∧ Increasing edges ∧ NeverFull edges ∧
      (∀ edge ∈ edges, 1000 + 16 * edge.source.rx.uartRxIdle.toNat < 100000) ∧
      delivered edges = [[1, 2]] := by
  have enabled : (follow step (ysUartInit powerOn 4)
      [.irq (some 1) false 1000, .irq (some 2) false 100000, .process, .statement 200000,
          .statement 200001, .statement 200002, .handlerReturn 0]).isSome = true := by
    decide +kernel
  obtain ⟨final, labels, run⟩ := enabled_run enabled
  refine ⟨_, final, labels, run, ?_, ?_, ?_, ?_⟩
  · rw [Increasing]
    decide +kernel
  · rw [NeverFull]
    decide +kernel
  · decide +kernel
  · decide +kernel

end Ser2Ble.YsUart
