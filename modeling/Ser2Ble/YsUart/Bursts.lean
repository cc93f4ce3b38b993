import Ser2Ble.Library.Chunks
import Ser2Ble.YsUart.IdleGap

/-!
# Bursts and packets

A burst is what arrives between two idle gaps that `ys_uart_process` sees.  The
packets committed are the bursts cut into chunks of 20 bytes: packet boundaries
depend on nothing else, neither on when the packets are read nor on what is
queued before them.
-/

namespace Ser2Ble.YsUart

open Library Proj

/-! ## The bursts of a run -/

instance (first : Nat) (check : Transition) : Decidable (SeesGap first check) :=
  match event : check.event with
  | .statement now =>
      decidable_of_iff (check.source.pc = .idleFlush ∧
        16 * check.source.rx.uartRxIdle.toNat < (now - (first ||| 1)) % 2 ^ 32)
        ⟨fun seen => ⟨now, event, seen⟩, fun ⟨_, other, seen⟩ => by
          cases event.symm.trans other
          exact seen⟩
  | .irq _ _ _ | .process | .handlerReturn _ | .send _ _ | .attWrite _ | .setBaud _ =>
      isFalse fun ⟨_, other, _⟩ => by cases event.symm.trans other

/-- The bursts of a run: those ended by a gap, the one that goes on, and when its last byte came. -/
structure Bursts where
  ended : List (List UInt8)
  current : List UInt8
  last : Option Nat

/-- The gap after the last byte is seen along an edge. -/
def Bursts.seesGap (bursts : Bursts) (edge : Transition) : Bool :=
  match bursts.last with
  | some first => decide (SeesGap first edge)
  | none => false

def Bursts.next (bursts : Bursts) (edge : Transition) : Bursts :=
  match edge.event with
  | .irq (some byte) _ now => ⟨bursts.ended, bursts.current ++ [byte], some now⟩
  | _ => if bursts.seesGap edge then ⟨bursts.ended ++ [bursts.current], [], none⟩ else bursts

def burstsOf (edges : List Transition) : Bursts :=
  edges.foldl Bursts.next ⟨[], [], none⟩

theorem burstsOf_last (edges : List Transition) (edge : Transition) :
    burstsOf (edges ++ [edge]) = (burstsOf edges).next edge :=
  List.foldl_concat ..

theorem Bursts.next_byte (bursts : Bursts) {edge : Transition} {byte : UInt8} {txDone : Bool}
    {now : Nat} (event : edge.event = .irq (some byte) txDone now) :
    bursts.next edge = ⟨bursts.ended, bursts.current ++ [byte], some now⟩ := by
  rw [Bursts.next, event]

theorem Bursts.next_silent (bursts : Bursts) {edge : Transition}
    (silent : edge.event.byte = none) : bursts.next edge =
      if bursts.seesGap edge then ⟨bursts.ended ++ [bursts.current], [], none⟩ else bursts := by
  unfold Bursts.next
  split
  · next shape =>
      rw [shape] at silent
      cases silent
  · rfl

/-! ## Packets are chunks of bursts -/

/-- The packets committed and under assembly are the chunks of the bursts so far. -/
structure Framed (edges : List Transition) (s : State) : Prop where
  committed : committedPackets edges =
    (burstsOf edges).ended.flatMap (Chunks.all 20) ++ Chunks.full 20 (burstsOf edges).current
  current : s.packets.current = Chunks.rest 20 (burstsOf edges).current
  last : ∀ first, (burstsOf edges).last = some first → lastByteTime edges = some first
  begun : (burstsOf edges).last = none → (burstsOf edges).current = []

/-- While bytes are under assembly, the gap after the last of them closes their packet. -/
theorem closes_iff_gap {baud : UInt8} {edges : List Transition} {source target : State}
    {event : Event} {first : Nat} (run : UartRun baud edges source) (streaming : Streaming source)
    (increasing : Increasing (edges ++ [⟨source, event, target⟩]))
    (silent : event.byte = none) (held : source.packets.current ≠ [])
    (last : lastByteTime edges = some first) :
    closesPacket source event = true ↔ SeesGap first ⟨source, event, target⟩ := by
  have armed : source.rx.uartRxTick ≠ 0 := by
    intro zero
    refine held ?_
    rw [State.packets_current]
    exact streaming.below.live.sound.assembling_eq_nil_iff.mpr (streaming.below.noStall zero)
  obtain ⟨other, same, stamp, member⟩ := stamped_run run armed
  cases last.symm.trans same
  exact @closes_iff_seesGap source target event first silent (idle_run run) stamp fun now reading =>
    increasing.lt member reading

/-- An edge that commits nothing, and ends a burst only where nothing is left over. -/
theorem Framed.quiet {edges : List Transition} {source target : State} {event : Event}
    (framed : Framed edges source) (silent : event.byte = none)
    (none : committedPacket ⟨source, event, target⟩ = none)
    (same : target.packets.current = source.packets.current)
    (whole : (burstsOf edges).seesGap ⟨source, event, target⟩ = true →
      Chunks.rest 20 (burstsOf edges).current = []) :
    Framed (edges ++ [⟨source, event, target⟩]) target := by
  have next := @Bursts.next_silent (burstsOf edges) ⟨source, event, target⟩ silent
  have uncommitted : committedPackets (edges ++ [⟨source, event, target⟩]) =
      committedPackets edges := by
    rw [committedPackets_last, none, Option.toList_none, List.append_nil]
  have later := @lastByteTime_none edges ⟨source, event, target⟩ silent
  cases seen : (burstsOf edges).seesGap ⟨source, event, target⟩ with
  | false =>
      rw [seen, if_neg (by simp)] at next
      exact ⟨by rw [uncommitted, burstsOf_last, next, framed.committed],
        by rw [same, burstsOf_last, next, framed.current],
        fun first shown => later.trans (framed.last first (by rwa [burstsOf_last, next] at shown)),
        fun empty => by
          rw [burstsOf_last, next] at empty ⊢
          exact framed.begun empty⟩
  | true =>
      rw [seen, if_pos rfl] at next
      refine ⟨?_, ?_, fun first shown => ?_, fun _ => ?_⟩
      · rw [uncommitted, burstsOf_last, next, framed.committed, List.flatMap_append,
          List.flatMap_singleton, Chunks.all_of_rest (whole seen), Chunks.full_nil, List.append_nil]
      · rw [same, framed.current, whole seen, burstsOf_last, next, Chunks.rest_nil]
      · rw [burstsOf_last, next] at shown
        cases shown
      · rw [burstsOf_last, next]

/-- A byte goes to the burst, and to the packet under assembly. -/
theorem Framed.receive {edges : List Transition} {source target : State} {byte : UInt8}
    {txDone : Bool} {now : Nat} (framed : Framed edges source)
    (committed : committedPacket ⟨source, .irq (some byte) txDone now, target⟩ =
      if source.packets.current.length + 1 < 20 then none
      else some (source.packets.current ++ [byte]))
    (packets : target.packets = source.packets.receive 20 byte) :
    Framed (edges ++ [⟨source, .irq (some byte) txDone now, target⟩]) target := by
  have next := @Bursts.next_byte (burstsOf edges)
    ⟨source, .irq (some byte) txDone now, target⟩ byte txDone now rfl
  refine ⟨?_, ?_, fun first shown => ?_, fun none => ?_⟩
  · rw [committedPackets_last, framed.committed, committed, burstsOf_last, next,
      List.append_assoc, framed.current]
    refine congrArg _ ?_
    by_cases short : (Chunks.rest 20 (burstsOf edges).current).length + 1 < 20
    · rw [if_pos short, (Chunks.concat_short short).1, Option.toList_none, List.append_nil]
    · rw [if_neg short, (Chunks.concat_full (by decide) short).1, Option.toList_some]
  · rw [packets, burstsOf_last, next, Packets.receive, framed.current]
    by_cases short : (Chunks.rest 20 (burstsOf edges).current).length + 1 < 20
    · rw [if_pos short, (Chunks.concat_short short).2, Packets.append, framed.current]
    · rw [if_neg short, (Chunks.concat_full (by decide) short).2, Packets.close]
  · rw [burstsOf_last, next] at shown
    cases shown
    exact lastByteTime_some edges rfl
  · rw [burstsOf_last, next] at none
    cases none

/-- An edge that commits what is left over ends the burst. -/
theorem Framed.closed {edges : List Transition} {source target : State} {event : Event}
    (framed : Framed edges source) (silent : event.byte = none)
    (held : source.packets.current ≠ [])
    (seen : (burstsOf edges).seesGap ⟨source, event, target⟩ = true)
    (committed : committedPacket ⟨source, event, target⟩ = some source.packets.current)
    (empty : target.packets.current = []) : Framed (edges ++ [⟨source, event, target⟩]) target := by
  have next := @Bursts.next_silent (burstsOf edges) ⟨source, event, target⟩ silent
  rw [seen, if_pos rfl] at next
  rw [framed.current] at held
  refine ⟨?_, ?_, fun first shown => ?_, fun _ => ?_⟩
  · rw [committedPackets_last, framed.committed, committed, burstsOf_last, next,
      List.flatMap_append, List.flatMap_singleton, Chunks.all_of_rest_ne held,
      Chunks.full_nil, List.append_nil, List.append_assoc, Option.toList_some]
    exact congrArg (fun packet => _ ++ (_ ++ [packet])) framed.current
  · rw [empty, burstsOf_last, next, Chunks.rest_nil]
  · rw [burstsOf_last, next] at shown
    cases shown
  · rw [burstsOf_last, next]

/-- While bytes are under assembly, an edge closes their packet exactly where their burst ends. -/
theorem Framed.sees_iff_closes {baud : UInt8} {edges : List Transition} {source target : State}
    {event : Event} (framed : Framed edges source) (run : UartRun baud edges source)
    (streaming : Streaming source)
    (increasing : Increasing (edges ++ [⟨source, event, target⟩]))
    (silent : event.byte = none) (held : source.packets.current ≠ []) :
    (burstsOf edges).seesGap ⟨source, event, target⟩ = closesPacket source event := by
  obtain ⟨first, begun⟩ : ∃ first, (burstsOf edges).last = some first := by
    refine Option.ne_none_iff_exists'.mp fun none => held ?_
    rw [framed.current, framed.begun none, Chunks.rest_nil]
  have exactly := closes_iff_gap run streaming increasing silent held (framed.last first begun)
  rw [Bursts.seesGap, begun]
  dsimp only
  rw [Bool.eq_iff_iff, decide_eq_true_iff]
  exact exactly.symm

theorem framed_step {baud : UInt8} {edges : List Transition} {source target : State}
    {event : Event} (run : UartRun baud edges source) (streaming : Streaming source)
    (framed : Framed edges source) (taken : step source event = some target)
    (good : CommitsBelow ⟨source, event, target⟩)
    (increasing : Increasing (edges ++ [⟨source, event, target⟩])) :
    Framed (edges ++ [⟨source, event, target⟩]) target := by
  have operation := packet_step streaming taken good
  cases arrived : event.byte with
  | some byte =>
      obtain ⟨txDone, now, rfl⟩ : ∃ txDone now, event = .irq (some byte) txDone now := by
        cases event with
        | irq other txDone now =>
            cases arrived
            exact ⟨txDone, now, rfl⟩
        | _ => cases arrived
      cases operation with
      | keep silent | close silent | deliver _ _ silent | refuse _ _ _ silent => cases silent
      | receive other same _ committed packets =>
          cases same
          exact framed.receive committed packets
  | none =>
      have kept := operation.silent arrived
      by_cases held : source.packets.current = []
      · rcases kept with ⟨none, same⟩ | ⟨_, filled, _⟩
        · refine framed.quiet arrived none same fun _ => ?_
          rw [← framed.current]
          exact held
        · exact absurd held filled
      · have sees := framed.sees_iff_closes run streaming increasing arrived held
        cases closes : closesPacket source event with
        | false =>
            rcases kept with ⟨none, same⟩ | ⟨some, _⟩
            · refine framed.quiet arrived none same fun seen => ?_
              rw [sees, closes] at seen
              cases seen
            · rw [committedPacket_none closes] at some
              cases some
        | true =>
            rcases kept with ⟨none, _⟩ | ⟨some, _, empty⟩
            · rw [committedPacket, if_pos ⟨closes, streaming.below.room⟩] at none
              cases none
            · exact framed.closed arrived held (sees.trans closes) some empty

theorem framed_run {baud : UInt8} {edges : List Transition} {final : State}
    (run : UartRun baud edges final) (increasing : Increasing edges)
    (below : ∀ edge ∈ edges, CommitsBelow edge) : Framed edges final := by
  induction run with
  | refl =>
      refine ⟨rfl, ?_, fun first shown => ?_, fun _ => rfl⟩
      · rw [init_packets]
        rfl
      · cases shown
  | tail run taken ih =>
      have earlier := fun edge member => below edge (List.mem_append_left _ member)
      have streaming := run.preserves (init_streaming baud) streaming_step earlier
      exact framed_step run streaming (ih increasing.of_append earlier) taken
        (below _ List.mem_concat_self) increasing

/--
The packets committed along a run are the chunks of its bursts, and the bytes
under assembly what the last burst has left over.
-/
theorem packets_are_chunks {baud : UInt8} {edges : List Transition} {final : State}
    (run : UartRun baud edges final) (increasing : Increasing edges)
    (below : ∀ edge ∈ edges, CommitsBelow edge) :
    committedPackets edges = (burstsOf edges).ended.flatMap (Chunks.all 20) ++
        Chunks.full 20 (burstsOf edges).current ∧
      final.packets.current = Chunks.rest 20 (burstsOf edges).current := by
  have framed := framed_run run increasing below
  exact ⟨framed.committed, framed.current⟩

/-- 21 bytes, a gap that is seen, and one byte more. -/
def longAndShort : List Event :=
  ((List.range 21).map fun index => .irq (some (UInt8.ofNat index)) false (1000 + 1400 * index)) ++
    [.process, .statement 60000, .irq (some 99) false 70000]

set_option maxRecDepth 100000 in
theorem packets_are_chunks_longAndShort :
    ∃ edges final, edges.map Edge.event = longAndShort ∧ UartRun 4 edges final ∧
      (committedPackets edges).map List.length = [20, 1] ∧ final.packets.current = [99] := by
  have enabled : (follow step (ysUartInit powerOn 4) longAndShort).isSome = true := by
    decide +kernel
  obtain ⟨final, labels, run⟩ := enabled_run enabled
  have increasing : Increasing (trace step (ysUartInit powerOn 4) longAndShort) := by
    rw [Increasing]
    decide +kernel
  have below : ∀ edge ∈ trace step (ysUartInit powerOn 4) longAndShort, CommitsBelow edge := by
    decide +kernel
  obtain ⟨ended, current⟩ :
      (burstsOf (trace step (ysUartInit powerOn 4) longAndShort)).ended =
        [(List.range 21).map UInt8.ofNat] ∧
      (burstsOf (trace step (ysUartInit powerOn 4) longAndShort)).current = [99] := by
    decide +kernel
  obtain ⟨packets, held⟩ := packets_are_chunks run increasing below
  rw [ended, current] at packets
  rw [current] at held
  refine ⟨_, final, labels, run, ?_, held⟩
  rw [packets]
  decide

end Ser2Ble.YsUart
