import Mathlib.Data.List.Infix
import Ser2Ble.YsUart.ReceiveProgress

/-!
# When the receive queue cannot overrun

A pass of `ys_uart_process` may close one packet and take one.  A packet that
the interrupt closes is 20 bytes long, so a loop that comes round within 20
bytes gains nothing on it; only the passes whose packet is refused add up.
-/

namespace Ser2Ble.YsUart

open Library Proj

/-! ## Counts -/

/-- The tick at which a statement tests for an idle line. -/
def testTime (edge : Transition) : Option Nat :=
  match edge.event, edge.source.pc with
  | .statement now, .idleFlush => some now
  | _, _ => none

/-- `ys_uart_recv_handler` returns another value than 0. -/
def refuses (edge : Transition) : Bool :=
  match edge.event with
  | .handlerReturn ret => decide (ret ≠ 0)
  | _ => false

/-- The bytes received since `ys_uart_process` last tested for an idle line. -/
def bytesSince (edges : List Transition) : Nat :=
  since (fun edge => (testTime edge).isSome) (fun edge => edge.event.byte.isSome.toNat) edges

/-- The packets refused since a pass last found none. -/
def refusedSince (edges : List Transition) : Nat :=
  since findsNone (fun edge => (refuses edge).toNat) edges

/-- A pass that has tested for an idle line and has a packet still to take. -/
def Pc.toTake : Pc → Nat
  | .rxGet => 1
  | .recvCall _ => 1
  | .recvHandler _ _ => 1
  | .rxPop => 1
  | _ => 0

/-! ## The load of the queue -/

/-- What the load needs of the pointers.  It survives an overrun, which leaves the slots in disorder. -/
structure Counting (s : State) : Prop where
  ahead : s.rx.wlen < s.rx.wptr
  reading : Reading s

theorem closePacket_ahead {rx : Rx} (ahead : rx.wlen < rx.wptr) :
    rx.closePacket.wlen < rx.closePacket.wptr := by
  unfold Rx.closePacket
  split
  · exact Nat.lt_add_of_pos_right (by decide)
  · exact ahead

theorem counting_step {source target : State} {event : Event} (counting : Counting source)
    (taken : step source event = some target) : Counting target := by
  have ahead := counting.ahead
  refine ⟨?_, reading_step counting.reading taken⟩
  cases step_rx taken with
  | keep _ _ idle rx =>
      rw [rx]
      exact ahead
  | byte byte txDone now rx =>
      rw [rx]
      unfold Rx.receiveByte
      dsimp only
      split
      · exact Nat.lt_succ_of_lt ahead
      · exact @closePacket_ahead (source.rx.storeByte byte) ahead
  | flush now pc rx =>
      rw [rx, Rx.idleFlush]
      split
      · exact closePacket_ahead ahead
      · exact ahead
  | pop now pc rx =>
      rw [rx]
      exact ahead

theorem init_counting (baud : UInt8) : Counting (ysUartInit powerOn baud) := by
  obtain ⟨idle, rx⟩ := init_rx baud
  refine ⟨?_, ?_⟩
  · rw [rx]
    exact (by decide : powerOn.rx.start.wlen < powerOn.rx.start.wptr)
  · rw [Reading, init_pc]
    trivial

/--
The slot under assembly counts for the bytes in it and its header, and for a full
slot where an overrun has left its length or its tick in disorder.
-/
def Rx.weight (rx : Rx) : Nat :=
  if 2 ≤ rx.length.toNat ∧ rx.length.toNat < 22 ∧ (rx.uartRxTick ≠ 0 → 2 < rx.length.toNat) then
    rx.length.toNat
  else 22

/-- A queued packet counts for 20 bytes, whatever its length, and so does a packet still to be taken. -/
def Loaded (s : State) (bytes refused : Nat) : Prop :=
  20 * s.rx.backlog + s.rx.weight ≤ 22 + bytes + 20 * refused + 20 * s.pc.toTake

theorem Rx.weight_le (rx : Rx) : rx.weight ≤ 22 := by
  unfold Rx.weight
  split <;> omega

theorem Rx.weight_ge (rx : Rx) : 2 ≤ rx.weight := by
  unfold Rx.weight
  split <;> omega

theorem Rx.weight_empty {rx : Rx} (length : rx.length = 2) (tick : rx.uartRxTick = 0) :
    rx.weight = 2 := by
  rw [Rx.weight, length]
  exact if_pos ⟨by decide, by decide, fun armed => absurd tick armed⟩

/-- With a tick pending there is at least one byte, or the slot counts in full. -/
theorem Rx.weight_pending {rx : Rx} (armed : rx.uartRxTick ≠ 0) : 2 < rx.weight := by
  unfold Rx.weight
  split
  · next tidy => exact tidy.2.2 armed
  · decide

theorem Rx.weight_disarm (rx : Rx) : Rx.weight { rx with uartRxTick := 0 } ≤ rx.weight := by
  have same : Rx.length { rx with uartRxTick := 0 } = rx.length := rfl
  unfold Rx.weight
  rw [same]
  split
  · next tidy =>
      split
      · exact Nat.le_refl _
      · exact Nat.le_of_lt tidy.2.1
  · next untidy =>
      rw [if_neg fun tidy => untidy ⟨tidy.1, tidy.2.1, fun armed => absurd rfl armed⟩]

/-- Closing a packet takes its weight for 20 bytes, or leaves it where it is. -/
theorem closePacket_load (rx : Rx) :
    (20 * rx.closePacket.backlog + rx.closePacket.weight = 20 * rx.backlog + 22) ∨
      (rx.closePacket.backlog = rx.backlog ∧ rx.closePacket.weight ≤ rx.weight) := by
  unfold Rx.closePacket
  dsimp only
  split
  · next room =>
      have closed := @Rx.nextSlot_backlog { rx with uartRxTick := 0 } room
      have empty := Rx.weight_empty (Rx.nextSlot_length { rx with uartRxTick := 0 }) rfl
      rw [closed, empty]
      change 20 * (rx.backlog + 1) + 2 = _ ∨ _
      omega
  · exact Or.inr ⟨rfl, rx.weight_disarm⟩

theorem receiveByte_load {rx : Rx} (ahead : rx.wlen < rx.wptr) (byte : UInt8) (now : Nat) :
    20 * (rx.receiveByte byte now).backlog + (rx.receiveByte byte now).weight ≤
      20 * rx.backlog + rx.weight + 1 := by
  have grown : (rx.storeByte byte).length.toNat = (rx.length.toNat + 1) % 256 := by
    rw [Rx.storeByte_length byte (Nat.ne_of_gt ahead), UInt8.toNat_add]
    rfl
  have bound := rx.length.toNat_lt
  have stored : (rx.storeByte byte).backlog = rx.backlog := rfl
  unfold Rx.receiveByte
  dsimp only
  split
  · next short =>
      -- a byte is added, or the slot counts in full before
      rw [UInt8.lt_iff_toNat_lt] at short
      have small : (rx.storeByte byte).length.toNat < 22 := short
      have same : Rx.length { rx.storeByte byte with
          wptr := (rx.storeByte byte).wptr + 1, uartRxTick := clockTime now ||| 1 } =
          (rx.storeByte byte).length := rfl
      change 20 * rx.backlog + _ ≤ _
      rw [Rx.weight, Rx.weight, same]
      split <;> split <;> omega
  · next long =>
      rw [UInt8.lt_iff_toNat_lt] at long
      have full : ¬ (rx.storeByte byte).length.toNat < 22 := long
      have heavy : 21 ≤ rx.weight := by
        unfold Rx.weight
        split <;> omega
      have most := rx.storeByte byte |>.weight_le
      rcases closePacket_load (rx.storeByte byte) with closed | ⟨same, light⟩
      · omega
      · omega

/-- Closing a packet of one byte or more keeps the load under a multiple of 20. -/
theorem idleFlush_load (rx : Rx) (now : Nat) {refused : Nat}
    (load : 20 * rx.backlog + rx.weight ≤ 42 + 20 * refused) :
    20 * (rx.idleFlush now).backlog + (rx.idleFlush now).weight ≤ 42 + 20 * refused := by
  unfold Rx.idleFlush
  split
  · next expired =>
      have some := Rx.weight_pending (Rx.idleExpired_armed expired)
      rcases closePacket_load rx with closed | ⟨same, light⟩
      · omega
      · omega
  · exact load

theorem Loaded.of_rx {source target : State} {bytes refused : Nat} (loaded : Loaded source bytes refused)
    (backlog : target.rx.backlog = source.rx.backlog) (weight : target.rx.weight = source.rx.weight)
    (owed : target.pc.toTake = source.pc.toTake) : Loaded target bytes refused := by
  rw [Loaded, backlog, weight, owed]
  exact loaded

theorem loaded_step {source target : State} {event : Event} {bytes refused : Nat}
    (counting : Counting source) (loaded : Loaded source bytes refused) (paced : bytes ≤ 20)
    (taken : step source event = some target) :
    Loaded target
      (if (testTime ⟨source, event, target⟩).isSome then 0 else bytes + event.byte.isSome.toNat)
      (if findsNone ⟨source, event, target⟩ then 0
        else refused + (refuses ⟨source, event, target⟩).toNat) := by
  cases step_cases taken with
  | irq byte txDone now =>
      cases byte with
      | none =>
          simp only [testTime, findsNone, refuses, Event.byte, Option.isSome_none,
            Bool.toNat_false, Bool.false_eq_true, if_false, Nat.add_zero]
          exact loaded
      | some byte =>
          have grown := receiveByte_load counting.ahead byte now
          rw [Loaded] at loaded
          simp only [testTime, findsNone, refuses, Event.byte, Option.isSome_some,
            Option.isSome_none, Bool.toNat_true, Bool.toNat_false, Bool.false_eq_true, if_false]
          change 20 * (source.rx.receiveByte byte now).backlog +
            (source.rx.receiveByte byte now).weight ≤ _ + 20 * source.pc.toTake
          omega
  | idleFlush now pc =>
      rw [Loaded, pc] at loaded
      simp only [Pc.toTake] at loaded
      have flushed := @idleFlush_load source.rx now refused (by omega)
      simp only [testTime, findsNone, refuses, pc, Option.isSome_some, if_true,
        Bool.false_eq_true, if_false, Bool.toNat_false]
      change 20 * (source.rx.idleFlush now).backlog + (source.rx.idleFlush now).weight ≤
        22 + 0 + 20 * (refused + 0) + 20 * 1
      omega
  | rxEmpty now pc get =>
      have empty : source.rx.backlog = 0 := (MyFifo.get_eq_none_iff _).mp get
      have upper := source.rx.weight_le
      simp only [testTime, findsNone, pc, get, Event.byte, Option.isNone_none, if_true,
        Bool.false_eq_true, if_false, Option.isSome_none, Bool.toNat_false]
      change 20 * source.rx.backlog + source.rx.weight ≤ 22 + (bytes + 0) + 20 * 0 + 20 * 0
      omega
  | handlerRefused ret fp len pc refusing =>
      rw [Loaded, pc] at loaded
      simp only [Pc.toTake] at loaded
      simp only [testTime, findsNone, refuses, refusing, Event.byte, ne_eq, not_false_eq_true,
        decide_true, Bool.toNat_true, Bool.false_eq_true, if_false, Option.isSome_none,
        Bool.toNat_false]
      change 20 * source.rx.backlog + source.rx.weight ≤
        22 + (bytes + 0) + 20 * (refused + 1) + 20 * 0
      omega
  | rxPop now pc =>
      have some := counting.reading.pop pc
      have popped := Rx.backlog_pop some
      rw [Loaded, pc] at loaded
      simp only [Pc.toTake] at loaded
      simp only [testTime, findsNone, refuses, pc, Event.byte, Bool.false_eq_true, if_false,
        Option.isSome_none, Bool.toNat_false]
      change 20 * source.rx.pop.backlog + source.rx.weight ≤
        22 + (bytes + 0) + 20 * (refused + 0) + 20 * 0
      omega
  | setBaud baud pc =>
      obtain ⟨idle, rx⟩ := ysUartSetBaud_rx source baud
      simp only [testTime, findsNone, refuses, Event.byte, Bool.false_eq_true, if_false,
        Option.isSome_none, Bool.toNat_false, Nat.add_zero]
      refine loaded.of_rx ?_ ?_ ?_
      · rw [rx]
        rfl
      · rw [rx]
        rfl
      · rw [ysUartSetBaud_pc]
  | rxGet now fp pc get =>
      simpa [testTime, findsNone, refuses, Event.byte, pc, get, Loaded, Pc.toTake] using loaded
  | handlerDone fp len pc | process pc | recvCall now fp pc | txGet now fp pc get | txEmpty now pc
  | txBusy now fp pc | txFree now fp pc | kmaTooLong now fp pc | kmaLen now fp pc
  | kmaBusy now fp pc | kmaFree now fp pc | raiseBusyFlag now fp pc | armDelay now fp pc
  | startTx now fp pc | txPop now ret pc =>
      simpa [testTime, findsNone, refuses, Event.byte, pc, Loaded, Pc.toTake] using loaded
  | send data len pc fits | attWrite packet pc =>
      simpa [testTime, findsNone, refuses, Event.byte, Loaded] using loaded

section Runs

variable {baud : UInt8} {edges : List Transition} {final : State}

/-- The loop tests for an idle line at least once in 20 bytes. -/
def InTime (edges : List Transition) : Prop :=
  ∀ before, before <+: edges → bytesSince before ≤ 20

/-- At no time have 60 packets been refused since a pass last found the queue empty. -/
def Patient (edges : List Transition) : Prop :=
  ∀ before, before <+: edges → refusedSince before < 60

theorem init_loaded (baud : UInt8) : Loaded (ysUartInit powerOn baud) 0 0 := by
  obtain ⟨idle, rx⟩ := init_rx baud
  rw [Loaded, rx, init_pc]
  exact (by decide : 20 * powerOn.rx.start.backlog + powerOn.rx.start.weight ≤ 22)

theorem loaded_run (run : UartRun baud edges final) (inTime : InTime edges) :
    Loaded final (bytesSince edges) (refusedSince edges) := by
  induction run with
  | refl => exact init_loaded baud
  | @tail edges source target event run taken ih =>
      have part : edges <+: edges ++ [⟨source, event, target⟩] := List.prefix_append _ _
      have loaded := ih fun before sub => inTime before (sub.trans part)
      have counting := run.invariant (init_counting baud) counting_step
      rw [bytesSince, refusedSince, since_last, since_last]
      exact loaded_step counting loaded (inTime edges part) taken

/-- The bound holds in every run of such a loop, also after an overrun. -/
theorem backlog_le_refused (run : UartRun baud edges final) (inTime : InTime edges) :
    final.rx.backlog ≤ 3 + refusedSince edges := by
  have loaded := loaded_run run inTime
  have paced := inTime edges (List.prefix_refl _)
  have owed : final.pc.toTake ≤ 1 := by cases final.pc <;> simp [Pc.toTake]
  have lower := final.rx.weight_ge
  rw [Loaded] at loaded
  omega

theorem commitsBelow_of_patient (run : UartRun baud edges final) (inTime : InTime edges)
    (patient : Patient edges) : ∀ edge ∈ edges, CommitsBelow edge := by
  intro edge member _
  obtain ⟨before, after, rfl⟩ := List.append_of_mem member
  have part : before <+: before ++ edge :: after := List.prefix_append _ _
  have bounded := backlog_le_refused run.split.1 fun first sub => inTime first (sub.trans part)
  have few := patient before part
  omega

/--
If the main loop tests for an idle line at least once in 20 received bytes, the
backlog is at most three packets and those refused since the queue was last
found empty.  While these are fewer than 60, nothing is overwritten.
-/
theorem backlog_bounded (run : UartRun baud edges final) (inTime : InTime edges) :
    final.rx.backlog ≤ 3 + refusedSince edges ∧
      (Patient edges → ∀ edge ∈ edges, CommitsBelow edge) :=
  ⟨backlog_le_refused run inTime, commitsBelow_of_patient run inTime⟩

end Runs

theorem inTime_of_inits {edges : List Transition}
    (each : ∀ before ∈ edges.inits, bytesSince before ≤ 20) : InTime edges :=
  fun before sub => each before ((List.mem_inits before edges).mpr sub)

theorem patient_of_inits {edges : List Transition}
    (each : ∀ before ∈ edges.inits, refusedSince before < 60) : Patient edges :=
  fun before sub => each before ((List.mem_inits before edges).mpr sub)

/-- A byte whose packet is refused, and another byte behind it. -/
def refusedByte : List Event :=
  [.irq (some 7) false 1000, .process, .statement 20000, .statement 20001, .statement 20002,
    .handlerReturn 1, .statement 20003, .irq (some 8) false 21000]

set_option maxRecDepth 100000 in
theorem backlog_bounded_refusedByte :
    ∃ edges final, edges.map Edge.event = refusedByte ∧ UartRun 4 edges final ∧
      refusedSince edges = 1 ∧ final.rx.backlog ≤ 4 ∧ ∀ edge ∈ edges, CommitsBelow edge := by
  obtain ⟨final, events, run⟩ := @enabled_run _ _ step (ysUartInit powerOn 4) refusedByte
    (by decide +kernel)
  have inTime := @inTime_of_inits (trace step (ysUartInit powerOn 4) refusedByte)
    (by decide +kernel)
  have patient := @patient_of_inits (trace step (ysUartInit powerOn 4) refusedByte)
    (by decide +kernel)
  have once : refusedSince (trace step (ysUartInit powerOn 4) refusedByte) = 1 := by
    decide +kernel
  obtain ⟨bounded, below⟩ := backlog_bounded run inTime
  rw [once] at bounded
  exact ⟨_, final, events, run, once, bounded, below patient⟩

/-- A handler that never refuses. -/
theorem refusedSince_eq_zero {edges : List Transition}
    (never : ∀ edge ∈ edges, refuses edge = false) : refusedSince edges = 0 := by
  induction edges using List.reverseRecOn with
  | nil => rfl
  | append_singleton edges edge ih =>
      have earlier := ih fun edge member => never edge (List.mem_append_left _ member)
      have last := never edge (List.mem_append_right _ (List.mem_singleton_self edge))
      rw [refusedSince] at earlier
      rw [refusedSince, since_last, last, earlier]
      exact ite_self 0

/-! ## Time -/

/-- The tick at which `ys_uart_process` last tested for an idle line, or at first the one of the start. -/
def lastTestTime (boot : Nat) (edges : List Transition) : Nat :=
  ((edges.filterMap testTime).getLast?).getD boot

/--
Bytes are `char` ticks apart, and none comes more than 19 times `char` after
the last test for an idle line, since by then the loop has come round.
-/
def Spaced (boot char : Nat) (edges : List Transition) : Prop :=
  ∀ before edge, before ++ [edge] <+: edges → ∀ now ∈ byteTime edge,
    (bytesSince before ≠ 0 → ∀ last ∈ lastByteTime before, last + char ≤ now) ∧
      lastTestTime boot before ≤ now ∧ now ≤ lastTestTime boot before + 19 * char

theorem lastTestTime_other (boot : Nat) (edges : List Transition) {edge : Transition}
    (other : testTime edge = none) :
    lastTestTime boot (edges ++ [edge]) = lastTestTime boot edges := by
  rw [lastTestTime, filterMap_last, other, Option.toList_none, List.append_nil, lastTestTime]

theorem bytesSince_last (edges : List Transition) (edge : Transition) :
    bytesSince (edges ++ [edge]) =
      if (testTime edge).isSome then 0 else bytesSince edges + edge.event.byte.isSome.toNat :=
  since_last _ _ edges edge

theorem byteTime_of_byte {edge : Transition} {byte : UInt8} (shown : edge.event.byte = some byte) :
    ∃ now, byteTime edge = some now := by
  obtain ⟨source, event, target⟩ := edge
  cases event with
  | irq received txDone now =>
      cases shown
      exact ⟨now, rfl⟩
  | _ => cases shown

/-- The bytes since the last test are spread over as many characters. -/
theorem spread {boot char : Nat} {edges : List Transition} (spaced : Spaced boot char edges)
    {bytes : Nat} (count : bytesSince edges = bytes + 1) :
    ∃ last, lastByteTime edges = some last ∧ lastTestTime boot edges + bytes * char ≤ last ∧
      last ≤ lastTestTime boot edges + 19 * char := by
  induction edges using List.reverseRecOn generalizing bytes with
  | nil => cases count
  | append_singleton edges edge ih =>
      have part : edges <+: edges ++ [edge] := List.prefix_append _ _
      have earlier := @ih fun before next sub => spaced before next (sub.trans part)
      rw [bytesSince_last] at count
      cases test : testTime edge with
      | some now => simp [test] at count
      | none =>
          rw [lastTestTime_other boot edges test]
          simp only [test, Option.isSome_none, Bool.false_eq_true, if_false] at count
          cases shown : edge.event.byte with
          | none =>
              rw [lastByteTime_none edges shown]
              simp only [shown, Option.isSome_none, Bool.toNat_false, Nat.add_zero] at count
              exact earlier count
          | some byte =>
              simp only [shown, Option.isSome_some, Bool.toNat_true, Nat.add_right_cancel_iff] at count
              obtain ⟨now, timed⟩ := byteTime_of_byte shown
              obtain ⟨apart, after, soon⟩ := spaced edges edge (List.prefix_refl _) now timed
              refine ⟨now, lastByteTime_some edges timed, ?_, soon⟩
              cases bytes with
              | zero => simpa using after
              | succ bytes =>
                  obtain ⟨last, latest, behind, _⟩ := earlier count
                  have next := apart (by omega) last latest
                  rw [Nat.succ_mul]
                  omega

/-- A loop that comes round within 19 characters does so within 20 bytes. -/
theorem inTime_of_spaced {boot char : Nat} (positive : 0 < char) {edges : List Transition}
    (spaced : Spaced boot char edges) : InTime edges := by
  intro before sub
  have part : Spaced boot char before := fun earlier edge inside =>
    spaced earlier edge (inside.trans sub)
  cases count : bytesSince before with
  | zero => exact Nat.zero_le 20
  | succ bytes =>
      obtain ⟨last, _, behind, soon⟩ := spread part count
      have bounded : bytes * char ≤ 19 * char := by omega
      have few := Nat.le_of_mul_le_mul_right bounded positive
      omega

theorem spaced_of_inits {boot char : Nat} {edges : List Transition}
    (each : ∀ before ∈ edges.inits, ∀ edge ∈ (edges.drop before.length).head?,
      ∀ now ∈ byteTime edge,
        (bytesSince before ≠ 0 → ∀ last ∈ lastByteTime before, last + char ≤ now) ∧
          lastTestTime boot before ≤ now ∧ now ≤ lastTestTime boot before + 19 * char) :
    Spaced boot char edges := by
  rintro before edge ⟨rest, rfl⟩ now timed
  refine each before ?_ edge ?_ now timed
  · rw [List.mem_inits, List.append_assoc]
    exact List.prefix_append _ _
  · simp

end Ser2Ble.YsUart
