import Ser2Ble.YsUart.ReceiveInvariant

/-!
# Safety of the receive ring over whole runs

The fullness test lets a 64th packet be committed, and the slot under assembly
is then the slot of the oldest unread packet.  For each safety property the
runs that have it are characterised by a condition on their edges.
-/

namespace Ser2Ble.YsUart

open Library Proj

/-- `count` bytes received at 115200 baud while the main loop is busy elsewhere. -/
def byteStream (count : Nat) : List Event :=
  (List.range count).map fun index => .irq (some 0x55) false (1400 * (index + 1))

theorem byteStream_succ (count : Nat) :
    byteStream (count + 1) = byteStream count ++ [.irq (some 0x55) false (1400 * (count + 1))] := by
  rw [byteStream, List.range_succ, List.map_append, List.map_singleton, byteStream]

/-- 50 bytes, two packets of them queued, and a pass that hands over the first while a byte arrives. -/
def backlogged : List Event :=
  byteStream 50 ++ [.process, .statement 70100, .statement 70101, .statement 70102,
    .irq (some 0x66) false 71400, .handlerReturn 0, .statement 71500, .statement 71501]

set_option maxRecDepth 100000 in
theorem backlogged_run :
    ∃ edges final, edges.map Edge.event = backlogged ∧ UartRun 4 edges final ∧
      final.rx.backlog = 1 ∧
      (∃ call ∈ edges, call.source.pc = .recvCall 0 ∧ call.source.rx.backlog = 2) ∧
      ∀ edge ∈ edges, edge.source.rx.backlog < 63 ∧
        (edge.event.byte ≠ none → edge.source.rx.length ≠ 22) := by
  have left : (follow step (ysUartInit powerOn 4) backlogged).map (fun s => s.rx.backlog) =
      some 1 := by
    decide +kernel
  obtain ⟨final, executed, one⟩ := Option.map_eq_some_iff.mp left
  obtain ⟨labels, run⟩ := trace_run executed
  have called : (trace step (ysUartInit powerOn 4) backlogged)[53]?.map (fun edge =>
      (edge.source.pc, edge.source.rx.backlog)) = some (.recvCall 0, 2) := by
    decide +kernel
  obtain ⟨call, shown, facts⟩ := Option.map_eq_some_iff.mp called
  obtain ⟨pc, two⟩ := Prod.mk.inj facts
  have calm : ∀ edge ∈ trace step (ysUartInit powerOn 4) backlogged,
      edge.source.rx.backlog < 63 ∧ (edge.event.byte ≠ none → edge.source.rx.length ≠ 22) := by
    decide +kernel
  exact ⟨_, final, labels, run, one, ⟨call, List.mem_of_getElem? shown, pc, two⟩, calm⟩

/-! ## Committed packets -/

/-- Length byte and payload of every unread packet survive the edge. -/
def UnreadKept (edge : Transition) : Prop :=
  ∀ distance < edge.source.rx.backlog,
    let base := edge.source.rx.unreadSlot distance
    edge.target.rx.cells base = edge.source.rx.cells base ∧
      ∀ offset, 2 ≤ offset → offset < (edge.source.rx.cells base).toNat →
        edge.target.rx.cells (base + offset) = edge.source.rx.cells (base + offset)

/-- After the edge the slot under assembly is none of the unread slots. -/
def AssemblyApart (edge : Transition) : Prop :=
  ∀ distance < edge.target.rx.backlog, edge.target.rx.wlen ≠ edge.target.rx.unreadSlot distance

/-- The 64th packet hands the slot of the oldest packet to the interrupt. -/
theorem nextSlot_overwrites {rx : Rx} (last : rx.backlog = 63) :
    rx.nextSlot.wlen = rx.unreadSlot 0 ∧ rx.nextSlot.cells (rx.unreadSlot 0) = 2 := by
  have full : rx.nextSlot.backlog = 64 := by
    rw [Rx.nextSlot_backlog (by omega), last]
  have oldest : rx.unreadSlot 0 = rx.nextSlot.wlen := (Rx.aliased_of_full full).slot_eq
  refine ⟨oldest.symm, ?_⟩
  rw [oldest]
  exact Rx.nextSlot_length rx

theorem Below.unreadKept {source target : State} {event : Event} (below : Below source)
    (taken : step source event = some target) (good : CommitsBelow ⟨source, event, target⟩) :
    UnreadKept ⟨source, event, target⟩ := by
  intro distance within
  have kept := preserved_step below taken good distance within
  have bounds := below.live.sound.committed distance within
    (Rx.not_aliased_of_room below.room within)
  refine ⟨kept 0 (by decide), fun offset _ payload => kept offset ?_⟩
  exact Nat.lt_of_lt_of_le payload bounds.2

theorem Below.assemblyApart {s : State} (below : Below s) :
    ∀ distance < s.rx.backlog, s.rx.wlen ≠ s.rx.unreadSlot distance := by
  intro distance within same
  have apart := Rx.slots_apart (Rx.not_aliased_of_room below.room within)
  rw [below.live.sound.wlen, Rx.unreadSlot] at same
  omega

/-- A commit on top of 63 queued packets changes the oldest packet. -/
theorem Below.overwritten {source target : State} {event : Event} (below : Below source)
    (taken : step source event = some target) (commit : commits ⟨source, event, target⟩)
    (crowded : ¬ source.rx.backlog < 63) :
    ¬ UnreadKept ⟨source, event, target⟩ ∧ ¬ AssemblyApart ⟨source, event, target⟩ := by
  have backlog := below.backlog
  obtain ⟨rx, targetEq, sameBacklog, sameRead⟩ := commits_target taken commit
  have last : rx.backlog = 63 := by omega
  obtain ⟨taken_over, two⟩ := nextSlot_overwrites last
  have oldest : rx.unreadSlot 0 = source.rx.unreadSlot 0 := by
    rw [Rx.unreadSlot, Rx.unreadSlot, sameRead]
  have within : 0 < source.rx.backlog := by omega
  constructor
  · intro kept
    have lengthKept : target.rx.cells (source.rx.unreadSlot 0) =
        source.rx.cells (source.rx.unreadSlot 0) := (kept 0 within).1
    have filled := below.live.sound.committed 0 within (Rx.not_aliased_of_room below.room within)
    rw [← lengthKept, targetEq, ← oldest, two] at filled
    exact absurd filled.1 (by decide)
  · intro apart
    have room : 0 < target.rx.backlog := by
      rw [targetEq, Rx.nextSlot_backlog (by omega)]
      exact Nat.succ_pos _
    refine apart 0 room ?_
    change target.rx.wlen = target.rx.unreadSlot 0
    rw [targetEq, taken_over, Rx.nextSlot_unreadSlot]

/--
Committed packets are immutable until popped exactly in the runs that never
commit a packet while 63 packets are queued; and those are exactly the runs in
which the slot under assembly is never an unread slot.
-/
theorem unread_packets_immutable_iff {baud : UInt8} {edges : List Transition} {final : State}
    (run : UartRun baud edges final) :
    ((∀ edge ∈ edges, UnreadKept edge) ↔ ∀ edge ∈ edges, CommitsBelow edge) ∧
      ((∀ edge ∈ edges, AssemblyApart edge) ↔ ∀ edge ∈ edges, CommitsBelow edge) := by
  constructor
  · refine run.exact_condition (init_below baud) below_step Below.unreadKept ?_
    intro source event target below taken kept commit
    by_contra crowded
    exact (below.overwritten taken commit crowded).1 kept
  · refine run.exact_condition (init_below baud) below_step ?_ ?_
    · intro source event target below taken good
      exact (below_step below taken good).assemblyApart
    · intro source event target below taken apart commit
      by_contra crowded
      exact (below.overwritten taken commit crowded).2 apart

theorem unread_packets_immutable_iff_backlogged :
    ∃ edges final, edges.map Edge.event = backlogged ∧ UartRun 4 edges final ∧
      (∃ edge ∈ edges, edge.source.rx.backlog = 2) ∧
      (∀ edge ∈ edges, UnreadKept edge) ∧ ∀ edge ∈ edges, AssemblyApart edge := by
  obtain ⟨edges, final, labels, run, _, ⟨call, member, _, two⟩, calm⟩ := backlogged_run
  obtain ⟨kept, apart⟩ := unread_packets_immutable_iff run
  have below : ∀ edge ∈ edges, CommitsBelow edge := fun edge inside _ => (calm edge inside).1
  exact ⟨edges, final, labels, run, ⟨call, member, two⟩, kept.mpr below, apart.mpr below⟩

set_option maxRecDepth 100000 in
/-- 1280 bytes without a main-loop pass: the 64th packet overwrites the first. -/
theorem unread_packet_overwritten :
    ∃ edges final, edges.map Edge.event = byteStream 1280 ∧ UartRun 4 edges final ∧
      (¬ ∀ edge ∈ edges, UnreadKept edge) ∧ ¬ ∀ edge ∈ edges, AssemblyApart edge := by
  have computed : ((follow step (ysUartInit powerOn 4) (byteStream 1279)).bind fun s =>
      (step s (.irq (some 0x55) false (1400 * 1280))).map fun t =>
        [s.rx.backlog, s.rx.unreadSlot 0, (s.rx.cells 0).toNat, t.rx.backlog, t.rx.wlen,
          t.rx.unreadSlot 0, (t.rx.cells 0).toNat]) = some [63, 0, 22, 64, 0, 0, 2] := by
    decide +kernel
  obtain ⟨edges, source, target, labels, run, member, facts⟩ := observed_run computed
  simp only [List.cons.injEq, and_true] at facts
  obtain ⟨sourceBacklog, sourceOldest, sourceByte, targetBacklog, targetLength, targetOldest,
    targetByte⟩ := facts
  refine ⟨edges, target, labels.trans (byteStream_succ 1279).symm, run, fun kept => ?_,
    fun apart => ?_⟩
  · have changed := (kept _ member 0 (by rw [sourceBacklog]; decide)).1
    change target.rx.cells (source.rx.unreadSlot 0) = source.rx.cells (source.rx.unreadSlot 0)
      at changed
    rw [sourceOldest, ← UInt8.toNat_inj, sourceByte, targetByte] at changed
    exact absurd changed (by decide)
  · refine apart _ member 0 (by rw [targetBacklog]; decide) ?_
    change target.rx.wlen = target.rx.unreadSlot 0
    rw [targetLength, targetOldest]

/-! ## Length byte and write pointer -/

/-- `ATT_MTU_SIZE`. -/
def attMtuSize : Nat := 23

/-- What the edge stores and what it passes to the handler stays inside a slot. -/
structure WithinSlot (edge : Transition) : Prop where
  length : 2 ≤ edge.target.rx.length.toNat ∧ edge.target.rx.length.toNat ≤ 22
  /-- the length byte between the increment and the size test of the interrupt -/
  counted : ∀ byte, edge.event.byte = some byte →
    2 ≤ (edge.source.rx.storeByte byte).length.toNat ∧
      (edge.source.rx.storeByte byte).length.toNat ≤ 22
  stored : ∀ byte, edge.event.byte = some byte →
    edge.source.rx.wlen = Rx.slot edge.source.rx.uartRxFifo.wptr ∧
      edge.source.rx.wlen + 2 ≤ edge.source.rx.wptr ∧ edge.source.rx.wptr ≤ edge.source.rx.wlen + 21
  handler : ∀ fp now, edge.event = .statement now → edge.source.pc = .recvCall fp →
    fp = edge.source.rx.unreadSlot 0 ∧ 1 ≤ (edge.source.rx.cells fp - 2).toNat ∧
      (edge.source.rx.cells fp - 2).toNat ≤ attMtuSize - 3

/-- No byte arrives while a complete packet is still waiting for room. -/
def ByteFits (edge : Transition) : Prop :=
  edge.event.byte ≠ none → edge.source.rx.length ≠ 22

/-- The handler is not called on a full FIFO whose slot under assembly is empty. -/
def HeadFilled (edge : Transition) : Prop :=
  ∀ fp now, edge.event = .statement now → edge.source.pc = .recvCall fp →
    ¬ (edge.source.rx.backlog = 64 ∧ edge.source.rx.length = 2)

theorem Live.head {s : State} (live : Live s) {fp : Nat} (pc : s.pc = .recvCall fp) :
    0 < s.rx.backlog ∧ fp = s.rx.unreadSlot 0 := by
  have reading := live.reading
  rw [Reading, pc] at reading
  exact reading

/-- On a full FIFO the packet being read is the one under assembly. -/
theorem Live.head_full {s : State} (live : Live s) {fp : Nat} (pc : s.pc = .recvCall fp)
    (full : s.rx.backlog = 64) : s.rx.cells fp = s.rx.length := by
  rw [(live.head pc).2, (Rx.aliased_of_full full).slot_eq, ← live.sound.wlen, Rx.length]

theorem Live.head_length {s : State} (live : Live s) {fp : Nat} (pc : s.pc = .recvCall fp)
    (filled : ¬ (s.rx.backlog = 64 ∧ s.rx.length = 2)) :
    3 ≤ (s.rx.cells fp).toNat ∧ (s.rx.cells fp).toNat ≤ 22 := by
  obtain ⟨some, oldest⟩ := live.head pc
  by_cases full : s.rx.backlog = 64
  · have lower := live.sound.lower
    have notTwo : s.rx.length.toNat ≠ 2 := fun two =>
      filled ⟨full, UInt8.toNat_inj.mp two⟩
    rw [live.head_full pc full]
    exact ⟨by omega, live.sound.upper⟩
  · have room : s.rx.backlog < 64 := Nat.lt_of_le_of_ne live.sound.backlog full
    rw [oldest]
    exact live.sound.committed 0 some (Rx.not_aliased_of_room room some)

theorem byteFits_toNat {edge : Transition} (fits : ByteFits edge) :
    edge.event.byte ≠ none → edge.source.rx.length.toNat ≠ 22 :=
  fun received full => fits received (UInt8.toNat_inj.mp full)

theorem Live.withinSlot {source target : State} {event : Event} (live : Live source)
    (taken : step source event = some target)
    (good : ByteFits ⟨source, event, target⟩ ∧ HeadFilled ⟨source, event, target⟩) :
    WithinSlot ⟨source, event, target⟩ := by
  have after := live_step live taken (byteFits_toNat good.1)
  refine ⟨⟨after.sound.lower, after.sound.upper⟩, fun byte received => ?_,
    fun byte _ => ⟨live.sound.wlen, live.sound.wptr_bounds⟩, fun fp now call pc => ?_⟩
  · have notFull := byteFits_toNat good.1 (by rw [received]; simp)
    have lower := live.sound.lower
    have upper := live.sound.upper
    change source.rx.length.toNat ≠ 22 at notFull
    change 2 ≤ (source.rx.storeByte byte).length.toNat ∧
      (source.rx.storeByte byte).length.toNat ≤ 22
    rw [live.sound.stored_length]
    omega
  · obtain ⟨lower, upper⟩ := live.head_length pc (good.2 fp now call pc)
    change fp = source.rx.unreadSlot 0 ∧ 1 ≤ (source.rx.cells fp - 2).toNat ∧
      (source.rx.cells fp - 2).toNat ≤ 20
    have difference : (source.rx.cells fp - 2).toNat = (source.rx.cells fp).toNat - 2 :=
      UInt8.toNat_sub_of_le _ _ (UInt8.le_iff_toNat_le.mpr (by change 2 ≤ _; omega))
    rw [difference]
    exact ⟨(live.head pc).2, by omega, by omega⟩

theorem Live.fits_of_withinSlot {source target : State} {event : Event} (live : Live source)
    (_ : step source event = some target) (within : WithinSlot ⟨source, event, target⟩) :
    ByteFits ⟨source, event, target⟩ ∧ HeadFilled ⟨source, event, target⟩ := by
  constructor
  · intro received full
    obtain ⟨byte, arrived⟩ := Option.ne_none_iff_exists'.mp received
    have bound := (within.counted byte arrived).2
    change (source.rx.storeByte byte).length.toNat ≤ 22 at bound
    change source.rx.length = 22 at full
    rw [live.sound.stored_length, full] at bound
    exact absurd bound (by decide)
  · rintro fp now call pc ⟨full, empty⟩
    have bound := (within.handler fp now call pc).2.1
    change 1 ≤ (source.rx.cells fp - 2).toNat at bound
    change source.rx.length = 2 at empty
    rw [live.head_full pc full, empty] at bound
    exact absurd bound (by decide)

/--
Length, stores and handler arguments stay inside their slots exactly in the
runs in which no byte arrives on top of a complete waiting packet and the
handler is not called on a full FIFO with nothing under assembly.
-/
theorem within_slot_iff {baud : UInt8} {edges : List Transition} {final : State}
    (run : UartRun baud edges final) :
    (∀ edge ∈ edges, WithinSlot edge) ↔ ∀ edge ∈ edges, ByteFits edge ∧ HeadFilled edge := by
  refine run.exact_condition (init_live baud) ?_ Live.withinSlot Live.fits_of_withinSlot
  intro source event target live taken good
  exact live_step live taken (byteFits_toNat good.1)

theorem within_slot_iff_backlogged :
    ∃ edges final, edges.map Edge.event = backlogged ∧ UartRun 4 edges final ∧
      (∃ call ∈ edges, call.source.pc = .recvCall 0) ∧ ∀ edge ∈ edges, WithinSlot edge := by
  obtain ⟨edges, final, labels, run, _, ⟨call, member, pc, _⟩, calm⟩ := backlogged_run
  refine ⟨edges, final, labels, run, ⟨call, member, pc⟩, ?_⟩
  refine (within_slot_iff run).mpr fun edge inside => ⟨(calm edge inside).2, ?_⟩
  rintro fp now _ _ ⟨full, _⟩
  have few := (calm edge inside).1
  omega

set_option maxRecDepth 100000 in
/-- 1301 bytes without a main-loop pass: the length byte passes the slot size. -/
theorem length_exceeds_slot :
    ∃ edges final, edges.map Edge.event = byteStream 1301 ∧ UartRun 4 edges final ∧
      final.rx.length = 23 ∧ ¬ ∀ edge ∈ edges, WithinSlot edge := by
  have computed : ((follow step (ysUartInit powerOn 4) (byteStream 1300)).bind fun s =>
      (step s (.irq (some 0x55) false (1400 * 1301))).map fun t => t.rx.length) = some 23 := by
    decide +kernel
  obtain ⟨edges, source, target, labels, run, member, length⟩ := observed_run computed
  refine ⟨edges, target, labels.trans (byteStream_succ 1300).symm, run, length, fun within => ?_⟩
  have bound := (within _ member).length.2
  change target.rx.length.toNat ≤ 22 at bound
  rw [length] at bound
  exact absurd bound (by decide)

/-! ## Pending bytes -/

/--
Bytes under assembly have a flush pending, and the flush commits them as soon
as the idle time has passed and the FIFO has room.
-/
def FlushPending (rx : Rx) : Prop :=
  2 < rx.length.toNat → rx.uartRxTick ≠ 0 ∧
    ∀ now, clockTimeExceed now rx.uartRxTick rx.uartRxIdle = true → rx.backlog < 64 →
      (rx.idleFlush now).backlog = rx.backlog + 1 ∧
        (rx.idleFlush now).unreadSlot rx.backlog = rx.wlen ∧
        ∀ offset < 22, (rx.idleFlush now).cells (rx.wlen + offset) = rx.cells (rx.wlen + offset)

/-- No packet is closed while the FIFO is full. -/
def ClosesWithRoom (edge : Transition) : Prop :=
  closesPacket edge.source edge.event = true → edge.source.rx.backlog < 64

structure Unstalled (s : State) : Prop where
  live : Live s
  noStall : NoStall s.rx

theorem unstalled_step {source target : State} {event : Event} (unstalled : Unstalled source)
    (taken : step source event = some target) (good : ClosesWithRoom ⟨source, event, target⟩) :
    Unstalled target :=
  ⟨live_step unstalled.live taken fun _ => unstalled.noStall.length_ne unstalled.live.sound,
    noStall_step unstalled.noStall taken good⟩

theorem Unstalled.flushPending {s : State} (unstalled : Unstalled s) : FlushPending s.rx := by
  intro filled
  have sound := unstalled.live.sound
  have armed : s.rx.uartRxTick ≠ 0 := by
    intro idle
    rw [unstalled.noStall idle] at filled
    exact absurd filled (by decide)
  refine ⟨armed, fun now exceeded room => ?_⟩
  have expired : s.rx.idleExpired now = true := by
    rw [Rx.idleExpired, exceeded, Bool.and_true]
    exact decide_eq_true armed
  rw [Rx.idleFlush, if_pos expired, Rx.closePacket, if_pos room]
  refine ⟨@Rx.nextSlot_backlog { s.rx with uartRxTick := 0 } room, ?_, fun offset bound => ?_⟩
  · rw [sound.wlen]
    exact congrArg Rx.slot (Ring.ahead_backlog _ _)
  · have apart : Ring.index 64 s.rx.uartRxFifo.wptr ≠ Ring.index 64 (s.rx.uartRxFifo.wptr + 1) := by
      have small := s.rx.uartRxFifo.wptr.toNat_lt
      rw [Ring.index, Ring.index, UInt8.toNat_add, UInt8.toNat_one]
      omega
    have ranges := Rx.slots_apart apart
    rw [Rx.nextSlot_cells, sound.wlen]
    exact Cells.store_other _ _ (by change _ ≠ Rx.slot (s.rx.uartRxFifo.wptr + 1); omega)

/-- A packet closed on a full FIFO leaves its bytes behind without a pending flush. -/
theorem Unstalled.stranded {source target : State} {event : Event} (unstalled : Unstalled source)
    (taken : step source event = some target) (closes : closesPacket source event = true)
    (full : ¬ source.rx.backlog < 64) : ¬ FlushPending target.rx := by
  intro pending
  have sound := unstalled.live.sound
  have lower := sound.lower
  cases step_rx taken with
  | keep quiet silent idle rx => exact absurd closes (by rw [quiet]; decide)
  | byte byte txDone now rx =>
      simp only [closesPacket, Bool.not_eq_true', decide_eq_false_iff_not] at closes
      have stillFull : ¬ (source.rx.storeByte byte).backlog < 64 := full
      rw [rx, Rx.receiveByte, if_neg closes, Rx.closePacket, if_neg stillFull] at pending
      have filled : 2 < (source.rx.storeByte byte).length.toNat := by
        rw [sound.stored_length]
        omega
      exact (pending filled).1 rfl
  | flush now pc rx =>
      rw [closesPacket, Bool.and_eq_true] at closes
      rw [rx, Rx.idleFlush, if_pos closes.2, Rx.closePacket, if_neg full] at pending
      exact (pending (sound.pending (Rx.idleExpired_armed closes.2)).1).1 rfl
  | pop now pc rx =>
      rw [closesPacket_statement pc (by decide)] at closes
      exact absurd closes (by decide)

/--
Received bytes are never stranded exactly in the runs that never close a packet
(by its 20th byte or by the idle timeout) while the FIFO is full.
-/
theorem flush_pending_iff {baud : UInt8} {edges : List Transition} {final : State}
    (run : UartRun baud edges final) :
    (∀ edge ∈ edges, FlushPending edge.target.rx) ↔ ∀ edge ∈ edges, ClosesWithRoom edge := by
  have initial : Unstalled (ysUartInit powerOn baud) :=
    ⟨(init_below baud).live, (init_below baud).noStall⟩
  refine run.exact_condition initial unstalled_step ?_ ?_
  · intro source event target unstalled taken good
    exact (unstalled_step unstalled taken good).flushPending
  · intro source event target unstalled taken pending closes
    by_contra full
    exact unstalled.stranded taken closes full pending

theorem flush_pending_iff_backlogged :
    ∃ edges final, edges.map Edge.event = backlogged ∧ UartRun 4 edges final ∧
      final.rx.backlog = 1 ∧ ∀ edge ∈ edges, FlushPending edge.target.rx := by
  obtain ⟨edges, final, labels, run, one, _, calm⟩ := backlogged_run
  refine ⟨edges, final, labels, run, one, (flush_pending_iff run).mpr fun edge inside _ => ?_⟩
  exact Nat.lt_succ_of_lt (calm edge inside).1

set_option maxRecDepth 100000 in
/-- 1300 bytes without a main-loop pass: 20 bytes under assembly and no flush pending. -/
theorem bytes_stranded :
    ∃ edges final, edges.map Edge.event = byteStream 1300 ∧ UartRun 4 edges final ∧
      final.rx.length = 22 ∧ final.rx.uartRxTick = 0 ∧
      ¬ ∀ edge ∈ edges, FlushPending edge.target.rx := by
  have computed : ((follow step (ysUartInit powerOn 4) (byteStream 1299)).bind fun s =>
      (step s (.irq (some 0x55) false (1400 * 1300))).map fun t =>
        [t.rx.length.toNat, t.rx.uartRxTick.toNat]) = some [22, 0] := by
    decide +kernel
  obtain ⟨edges, source, target, labels, run, member, facts⟩ := observed_run computed
  simp only [List.cons.injEq, and_true] at facts
  have tick : target.rx.uartRxTick = 0 := UInt32.toNat_inj.mp facts.2
  refine ⟨edges, target, labels.trans (byteStream_succ 1299).symm, run,
    UInt8.toNat_inj.mp facts.1, tick, fun pending => ?_⟩
  exact (pending _ member (by change 2 < target.rx.length.toNat; omega)).1 tick

end Ser2Ble.YsUart
