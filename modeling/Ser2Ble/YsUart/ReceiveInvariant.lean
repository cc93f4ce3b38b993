import Ser2Ble.YsUart.Receive

/-!
# Invariants of the receive side

One inversion lemma says what a transition can do to the receive side.  Three
invariants are built on it, each kept under a weaker condition than the next:
sound pointers, no stranded bytes, and a backlog that never fills the ring.
-/

namespace Ser2Ble.YsUart

open Library Proj

/-! ## What a transition does to the receive side -/

inductive RxStep (source : State) : Event → State → Prop where
  | keep {event : Event} {target : State} (quiet : closesPacket source event = false)
      (silent : event.byte = none) (idle : UInt32)
      (rx : target.rx = { source.rx with uartRxIdle := idle }) : RxStep source event target
  | byte {target : State} (byte : UInt8) (txDone : Bool) (now : Nat)
      (rx : target.rx = source.rx.receiveByte byte now) :
      RxStep source (.irq (some byte) txDone now) target
  | flush {target : State} (now : Nat) (pc : source.pc = .idleFlush)
      (rx : target.rx = source.rx.idleFlush now) : RxStep source (.statement now) target
  | pop {target : State} (now : Nat) (pc : source.pc = .rxPop)
      (rx : target.rx = source.rx.pop) : RxStep source (.statement now) target

theorem ysUartSetBaud_rx (s : State) (baud : UInt8) :
    ∃ idle, (ysUartSetBaud s baud).rx = { s.rx with uartRxIdle := idle } := by
  unfold ysUartSetBaud
  split
  · exact ⟨_, rfl⟩
  · exact ⟨_, rfl⟩

theorem ysUartSetBaud_idle (s : State) (baud : UInt8) :
    (ysUartSetBaud s baud).rx.uartRxIdle = s.rx.uartRxIdle ∨
      ∃ known : UartBaudTypeDef, (ysUartSetBaud s baud).rx.uartRxIdle = known.rxIdle := by
  unfold ysUartSetBaud
  split
  · next known _ => exact Or.inr ⟨known, rfl⟩
  · exact Or.inl rfl

/-- Away from the idle flush a statement closes nothing. -/
theorem closesPacket_statement {s : State} {now : Nat} {pc : Pc} (place : s.pc = pc)
    (elsewhere : pc ≠ .idleFlush) : closesPacket s (.statement now) = false := by
  subst place
  rw [closesPacket, decide_eq_false elsewhere, Bool.false_and]

theorem closesPacket_byte {s : State} {byte : UInt8} (txDone : Bool) (now : Nat)
    (long : ¬ (s.rx.storeByte byte).length < 22) :
    closesPacket s (.irq (some byte) txDone now) = true := by
  rw [closesPacket, decide_eq_false long]
  rfl

theorem closesPacket_flush {s : State} {now : Nat} (pc : s.pc = .idleFlush)
    (expired : s.rx.idleExpired now = true) : closesPacket s (.statement now) = true := by
  rw [closesPacket, decide_eq_true pc, expired]
  rfl

theorem step_rx {source target : State} {event : Event}
    (taken : step source event = some target) : RxStep source event target := by
  cases step_cases taken with
  | irq byte txDone now =>
      cases byte with
      | none => exact .keep rfl rfl source.rx.uartRxIdle rfl
      | some byte => exact .byte byte txDone now rfl
  | idleFlush now pc => exact .flush now pc rfl
  | rxPop now pc => exact .pop now pc rfl
  | setBaud baud pc =>
      obtain ⟨idle, rx⟩ := ysUartSetBaud_rx source baud
      exact .keep rfl rfl idle rx
  | process | handlerDone | handlerRefused | send | attWrite =>
      exact .keep rfl rfl source.rx.uartRxIdle rfl
  | rxGet _ _ pc | rxEmpty _ pc | recvCall _ _ pc | txGet _ _ pc | txEmpty _ pc | txBusy _ _ pc
  | txFree _ _ pc | kmaTooLong _ _ pc | kmaLen _ _ pc | kmaBusy _ _ pc | kmaFree _ _ pc
  | raiseBusyFlag _ _ pc | armDelay _ _ pc | startTx _ _ pc | txPop _ _ pc =>
      exact .keep (closesPacket_statement pc (by simp)) rfl source.rx.uartRxIdle rfl

/-- A commit moves on to the next slot. -/
theorem commits_target {source target : State} {event : Event}
    (taken : step source event = some target) (commit : commits ⟨source, event, target⟩) :
    ∃ rx : Rx, target.rx = rx.nextSlot ∧ rx.backlog = source.rx.backlog ∧
      rx.uartRxFifo.rptr = source.rx.uartRxFifo.rptr := by
  obtain ⟨closes, room⟩ := commit
  cases step_rx taken with
  | keep quiet silent idle rx => exact absurd closes (by rw [quiet]; decide)
  | byte byte txDone now rx =>
      refine ⟨{ source.rx.storeByte byte with uartRxTick := 0 }, ?_, rfl, rfl⟩
      simp only [closesPacket, Bool.not_eq_true', decide_eq_false_iff_not] at closes
      rw [rx, Rx.receiveByte]
      dsimp only
      rw [if_neg closes, Rx.closePacket]
      exact if_pos room
  | flush now pc rx =>
      refine ⟨{ source.rx with uartRxTick := 0 }, ?_, rfl, rfl⟩
      rw [closesPacket, Bool.and_eq_true] at closes
      rw [rx, Rx.idleFlush, if_pos closes.2, Rx.closePacket]
      exact if_pos room
  | pop now pc rx =>
      rw [closesPacket_statement pc (by decide)] at closes
      exact absurd closes (by decide)

/-- The idle time is changed by a baud change only. -/
theorem step_idle {source target : State} {event : Event}
    (taken : step source event = some target) :
    target.rx.uartRxIdle = source.rx.uartRxIdle ∨
      ∃ baud : UartBaudTypeDef, target.rx.uartRxIdle = baud.rxIdle := by
  rcases step_rate taken with same | ⟨baud, _, rfl⟩
  · exact Or.inl same.idle
  · exact ysUartSetBaud_idle source baud

/-! ## The packet being read -/

/-- While a packet is being read or popped, it is the oldest unread packet. -/
def Reading (s : State) : Prop :=
  match s.pc with
  | .recvCall fp => 0 < s.rx.backlog ∧ fp = s.rx.unreadSlot 0
  | .recvHandler fp _ => 0 < s.rx.backlog ∧ fp = s.rx.unreadSlot 0
  | .rxPop => 0 < s.rx.backlog
  | _ => True

namespace Rx

theorem closePacket_read (rx : Rx) :
    rx.closePacket.uartRxFifo.rptr = rx.uartRxFifo.rptr ∧ rx.backlog ≤ rx.closePacket.backlog := by
  unfold closePacket
  split
  · next room =>
      have grown := @nextSlot_backlog { rx with uartRxTick := 0 } room
      refine ⟨rfl, ?_⟩
      rw [grown]
      exact Nat.le_succ rx.backlog
  · exact ⟨rfl, Nat.le_refl rx.backlog⟩

theorem receiveByte_read (rx : Rx) (byte : UInt8) (now : Nat) :
    (rx.receiveByte byte now).uartRxFifo.rptr = rx.uartRxFifo.rptr ∧
      rx.backlog ≤ (rx.receiveByte byte now).backlog := by
  unfold receiveByte
  dsimp only
  split
  · exact ⟨rfl, Nat.le_refl rx.backlog⟩
  · exact (rx.storeByte byte).closePacket_read

end Rx

theorem reading_irq {s : State} (reading : Reading s) (byte : Option UInt8) (txDone : Bool)
    (now : Nat) : Reading (ysUartIrqHandler s byte txDone now) := by
  cases byte with
  | none => exact reading
  | some byte =>
      obtain ⟨read, grown⟩ := s.rx.receiveByte_read byte now
      have oldest : (s.rx.receiveByte byte now).unreadSlot 0 = s.rx.unreadSlot 0 := by
        rw [Rx.unreadSlot, Rx.unreadSlot, read]
      unfold Reading at reading ⊢
      change match s.pc with
        | .recvCall fp => 0 < (s.rx.receiveByte byte now).backlog ∧
            fp = (s.rx.receiveByte byte now).unreadSlot 0
        | .recvHandler fp _ => 0 < (s.rx.receiveByte byte now).backlog ∧
            fp = (s.rx.receiveByte byte now).unreadSlot 0
        | .rxPop => 0 < (s.rx.receiveByte byte now).backlog
        | _ => True
      rw [oldest]
      cases place : s.pc with
      | recvCall fp =>
          rw [place] at reading
          exact ⟨Nat.lt_of_lt_of_le reading.1 grown, reading.2⟩
      | recvHandler fp len =>
          rw [place] at reading
          exact ⟨Nat.lt_of_lt_of_le reading.1 grown, reading.2⟩
      | rxPop =>
          rw [place] at reading
          exact Nat.lt_of_lt_of_le reading grown
      | _ => trivial

theorem reading_step {source target : State} {event : Event} (reading : Reading source)
    (taken : step source event = some target) : Reading target := by
  cases step_cases taken with
  | irq byte txDone now => exact reading_irq reading byte txDone now
  | rxGet now fp pc get =>
      obtain ⟨some, oldest⟩ := (MyFifo.get_eq_some_iff _ _).mp get
      refine ⟨some, ?_⟩
      rw [oldest, Rx.unreadSlot, Ring.ahead_zero]
  | recvCall now fp pc =>
      rw [Reading, pc] at reading
      exact reading
  | handlerDone fp len pc =>
      rw [Reading, pc] at reading
      exact reading.1
  | send data len pc fits =>
      unfold Reading at reading ⊢
      exact reading
  | attWrite packet pc => exact reading
  | setBaud baud pc =>
      rw [Reading, ysUartSetBaud_pc, pc]
      trivial
  | _ => trivial

theorem Reading.pop {s : State} (reading : Reading s) (pc : s.pc = .rxPop) : 0 < s.rx.backlog := by
  rw [Reading, pc] at reading
  exact reading

/-! ## Invariants and what keeps them -/

/-- With no tick pending the slot under assembly is empty. -/
def NoStall (rx : Rx) : Prop :=
  rx.uartRxTick = 0 → rx.length = 2

structure Live (s : State) : Prop where
  sound : s.rx.Sound
  reading : Reading s

theorem init_rx (baud : UInt8) :
    ∃ idle, (ysUartInit powerOn baud).rx = { powerOn.rx.start with uartRxIdle := idle } :=
  ysUartSetBaud_rx _ baud

theorem start_sound : powerOn.rx.start.Sound :=
  ⟨rfl, by decide, by decide, by decide, by decide, fun armed => absurd rfl armed,
    fun distance within => absurd within (Nat.not_lt_zero distance)⟩

theorem init_live (baud : UInt8) : Live (ysUartInit powerOn baud) := by
  obtain ⟨idle, rx⟩ := init_rx baud
  refine ⟨?_, ?_⟩
  · rw [rx]
    exact start_sound.retime idle
  · rw [Reading, init_pc]
    trivial

/-- Soundness survives unless a byte arrives on top of a packet that is already complete. -/
theorem live_step {source target : State} {event : Event} (live : Live source)
    (taken : step source event = some target)
    (notFull : event.byte ≠ none → source.rx.length.toNat ≠ 22) : Live target := by
  refine ⟨?_, reading_step live.reading taken⟩
  cases step_rx taken with
  | keep quiet silent idle rx =>
      rw [rx]
      exact live.sound.retime idle
  | byte byte txDone now rx =>
      rw [rx]
      exact live.sound.receiveByte byte now (notFull (by simp [Event.byte]))
  | flush now pc rx =>
      rw [rx]
      exact live.sound.idleFlush now
  | pop now pc rx =>
      rw [rx]
      exact live.sound.pop (live.reading.pop pc)

theorem NoStall.length_ne {rx : Rx} (noStall : NoStall rx) (sound : rx.Sound) :
    rx.length.toNat ≠ 22 := by
  intro full
  by_cases idle : rx.uartRxTick = 0
  · rw [noStall idle] at full
    exact absurd full (by decide)
  · have bound := (sound.pending idle).2
    omega

theorem noStall_closePacket {rx : Rx} (room : rx.backlog < 64) : NoStall rx.closePacket := by
  unfold Rx.closePacket
  rw [if_pos room]
  exact fun _ => Rx.nextSlot_length _

/-- Nothing stalls as long as packets are closed only while the FIFO has room. -/
theorem noStall_step {source target : State} {event : Event}
    (noStall : NoStall source.rx) (taken : step source event = some target)
    (room : closesPacket source event = true → source.rx.backlog < 64) : NoStall target.rx := by
  cases step_rx taken with
  | keep quiet silent idle rx =>
      rw [rx]
      exact noStall
  | byte byte txDone now rx =>
      rw [rx]
      unfold Rx.receiveByte
      dsimp only
      split
      · exact fun idle => absurd idle (Clock.stamp_ne_zero now)
      · next long => exact noStall_closePacket (room (closesPacket_byte txDone now long))
  | flush now pc rx =>
      rw [rx]
      unfold Rx.idleFlush
      split
      · next expired => exact noStall_closePacket (room (closesPacket_flush pc expired))
      · exact noStall
  | pop now pc rx =>
      rw [rx]
      exact noStall

/-! ## A ring that is never full -/

/-- No packet is committed while 63 or more packets are queued. -/
def CommitsBelow (edge : Transition) : Prop :=
  commits edge → edge.source.rx.backlog < 63

instance (edge : Transition) : Decidable (CommitsBelow edge) :=
  inferInstanceAs (Decidable (commits edge → _))

structure Below (s : State) : Prop where
  live : Live s
  noStall : NoStall s.rx
  backlog : s.rx.backlog ≤ 63

theorem init_below (baud : UInt8) : Below (ysUartInit powerOn baud) := by
  obtain ⟨idle, rx⟩ := init_rx baud
  refine ⟨init_live baud, ?_, ?_⟩
  · rw [rx]
    exact fun _ => rfl
  · rw [rx]
    exact (by decide : powerOn.rx.start.backlog ≤ 63)

theorem Below.room {s : State} (below : Below s) : s.rx.backlog < 64 :=
  Nat.lt_succ_of_le below.backlog

theorem closePacket_backlog_le {rx : Rx} (room : rx.backlog < 63) : rx.closePacket.backlog ≤ 63 := by
  unfold Rx.closePacket
  split
  · next room' =>
      rw [@Rx.nextSlot_backlog { rx with uartRxTick := 0 } room']
      exact room
  · exact Nat.le_of_lt room

/-- Below the limit a packet that is closed is committed. -/
theorem Below.closes {source target : State} {event : Event} (below : Below source)
    (good : CommitsBelow ⟨source, event, target⟩) (closes : closesPacket source event = true) :
    source.rx.backlog < 63 :=
  good ⟨closes, below.room⟩

theorem below_step {source target : State} {event : Event} (below : Below source)
    (taken : step source event = some target) (good : CommitsBelow ⟨source, event, target⟩) :
    Below target := by
  refine ⟨live_step below.live taken fun _ => below.noStall.length_ne below.live.sound,
    noStall_step below.noStall taken fun _ => below.room, ?_⟩
  cases step_rx taken with
  | keep quiet silent idle rx =>
      rw [rx]
      exact below.backlog
  | byte byte txDone now rx =>
      rw [rx]
      unfold Rx.receiveByte
      dsimp only
      split
      · exact below.backlog
      · next long =>
          exact closePacket_backlog_le (below.closes good (closesPacket_byte txDone now long))
  | flush now pc rx =>
      rw [rx]
      unfold Rx.idleFlush
      split
      · next expired =>
          exact closePacket_backlog_le (below.closes good (closesPacket_flush pc expired))
      · exact below.backlog
  | pop now pc rx =>
      rw [rx, Rx.backlog_pop (below.live.reading.pop pc)]
      exact (Nat.sub_le _ _).trans below.backlog

/-- Below the limit no byte of an unread slot changes. -/
theorem preserved_step {source target : State} {event : Event} (below : Below source)
    (taken : step source event = some target) (good : CommitsBelow ⟨source, event, target⟩) :
    Rx.Preserved source.rx target.rx := by
  cases step_rx taken with
  | keep quiet silent idle rx =>
      rw [rx]
      exact Rx.Preserved.refl source.rx
  | byte byte txDone now rx =>
      have stored := below.live.sound.preserved_storeByte below.room byte
      rw [rx]
      unfold Rx.receiveByte
      dsimp only
      split
      · exact stored
      · next long =>
          have room := below.closes good (closesPacket_byte txDone now long)
          intro distance within offset bound
          have moved := @Rx.preserved_closePacket (source.rx.storeByte byte) room
          exact (moved distance within offset bound).trans (stored distance within offset bound)
  | flush now pc rx =>
      rw [rx]
      unfold Rx.idleFlush
      split
      · next expired =>
          exact Rx.preserved_closePacket (below.closes good (closesPacket_flush pc expired))
      · exact Rx.Preserved.refl source.rx
  | pop now pc rx =>
      rw [rx]
      exact Rx.Preserved.refl source.rx

end Ser2Ble.YsUart
