import Mathlib.Data.List.Basic

/-!
# Cutting a stream into packets

A packetizer holds the packets that are closed and the one being filled.  It
closes a packet when the packet reaches the limit or when it is told to.  No
operation but `pop` changes the stream that packets and rest make up.
-/

namespace Ser2Ble.Library

structure Packets (Value : Type) where
  queue : List (List Value)
  current : List Value

namespace Packets

variable {Value : Type}

def stream (packets : Packets Value) : List Value :=
  packets.queue.flatten ++ packets.current

def close (packets : Packets Value) : Packets Value :=
  ⟨packets.queue ++ [packets.current], []⟩

def append (packets : Packets Value) (value : Value) : Packets Value :=
  ⟨packets.queue, packets.current ++ [value]⟩

/-- Append a value, closing the packet when it has reached the limit. -/
def receive (limit : Nat) (packets : Packets Value) (value : Value) : Packets Value :=
  if packets.current.length + 1 < limit then packets.append value
  else (packets.append value).close

def pop (packets : Packets Value) : Packets Value :=
  ⟨packets.queue.tail, packets.current⟩

/-- Closed packets are neither empty nor longer than the limit, and the rest is shorter. -/
structure Bounded (limit : Nat) (packets : Packets Value) : Prop where
  queue : ∀ packet ∈ packets.queue, 1 ≤ packet.length ∧ packet.length ≤ limit
  current : packets.current.length < limit

@[simp] theorem stream_close (packets : Packets Value) : packets.close.stream = packets.stream := by
  rw [stream, close, List.flatten_append, List.flatten_singleton, List.append_nil, stream]

@[simp] theorem stream_receive (limit : Nat) (packets : Packets Value) (value : Value) :
    (packets.receive limit value).stream = packets.stream ++ [value] := by
  have grown : (packets.append value).stream = packets.stream ++ [value] := by
    rw [stream, append, stream, List.append_assoc]
  unfold receive
  split
  · exact grown
  · rw [stream_close]
    exact grown

theorem stream_pop {packets : Packets Value} {packet : List Value} {rest : List (List Value)}
    (shape : packets.queue = packet :: rest) : packet ++ packets.pop.stream = packets.stream := by
  rw [stream, stream, pop, shape, List.tail_cons, List.flatten_cons, List.append_assoc]

/-- Taking the oldest packet commutes with closing one, as long as there is one. -/
theorem pop_close {packets : Packets Value} (some : packets.queue ≠ []) :
    packets.close.pop = packets.pop.close := by
  rw [close, pop, pop, close, List.tail_append_of_ne_nil some]

theorem pop_receive {packets : Packets Value} (some : packets.queue ≠ []) (limit : Nat)
    (value : Value) : (packets.receive limit value).pop = packets.pop.receive limit value := by
  by_cases short : packets.current.length + 1 < limit
  · rw [receive, if_pos short, receive]
    exact (if_pos short).symm
  · have closed := @pop_close _ (packets.append value) some
    rw [receive, if_neg short, closed, receive]
    exact (if_neg short).symm

theorem Bounded.close {limit : Nat} {packets : Packets Value} (bounded : packets.Bounded limit)
    (filled : packets.current ≠ []) : packets.close.Bounded limit := by
  refine ⟨fun packet member => ?_, ?_⟩
  · rcases List.mem_append.mp member with old | new
    · exact bounded.queue packet old
    · rw [List.mem_singleton.mp new]
      exact ⟨List.length_pos_iff.mpr filled, Nat.le_of_lt bounded.current⟩
  · exact Nat.zero_lt_of_lt bounded.current

theorem Bounded.receive {limit : Nat} {packets : Packets Value} (bounded : packets.Bounded limit)
    (value : Value) : (packets.receive limit value).Bounded limit := by
  have room := bounded.current
  unfold Packets.receive
  split
  · next short =>
      refine ⟨bounded.queue, ?_⟩
      rwa [append, List.length_append, List.length_singleton]
  · refine ⟨fun packet member => ?_, Nat.zero_lt_of_lt room⟩
    rcases List.mem_append.mp member with old | new
    · exact bounded.queue packet old
    · rw [List.mem_singleton.mp new, append, List.length_append, List.length_singleton]
      exact ⟨Nat.le_add_left _ _, room⟩

theorem Bounded.pop {limit : Nat} {packets : Packets Value} (bounded : packets.Bounded limit) :
    packets.pop.Bounded limit :=
  ⟨fun packet member => bounded.queue packet (List.mem_of_mem_tail member), bounded.current⟩

/-- Packets of bounded length hold a bounded number of values. -/
theorem flatten_length_le {limit : Nat} {queue : List (List Value)}
    (short : ∀ packet ∈ queue, packet.length ≤ limit) :
    queue.flatten.length ≤ queue.length * limit := by
  induction queue with
  | nil => simp
  | cons packet rest ih =>
      have first := short packet List.mem_cons_self
      have others := ih fun other member => short other (List.mem_cons_of_mem _ member)
      rw [List.flatten_cons, List.length_append, List.length_cons, Nat.succ_mul]
      omega

end Packets

end Ser2Ble.Library
