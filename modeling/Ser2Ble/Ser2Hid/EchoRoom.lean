import Ser2Ble.Ser2Hid.Echo
import Ser2Ble.YsUart.ReceiveStream

/-!
# Echoes below overrun

While no packet is committed over 63 queued ones, interrupts leave the packet
at the handler alone, and no packet is longer than an echo can be.  A frame is
then lost only when its echo finds `uart_tx_fifo` full.
-/

namespace Ser2Ble.Ser2Hid

open Library Proj YsUart

/-- The handler still finds the packet that it tested. -/
def Intact (s : HidState) (current : Option HandlerPass) : Prop :=
  ∀ pass fp len, current = some pass → s.uart.pc = .recvHandler fp len →
    Cells.window (s.data fp) 0 len.toNat = pass.header

theorem window_data (s : HidState) (fp count : Nat) :
    Cells.window (s.data fp) 0 count = Cells.window s.uart.rx.cells (fp + 2) count := by
  refine List.map_congr_left fun offset _ => ?_
  rw [HidState.data, Nat.zero_add]

/-- Acts do not change the packet of a pass. -/
theorem Intact.act {source target : HidState} {log : PassLog (List UInt8) HandlerAct}
    (intact : Intact source log.current) (act : HandlerAct) {event : PassEvent (List UInt8) HandlerAct}
    (shape : event = .act act) (pc : target.uart.pc = source.uart.pc)
    (rx : target.uart.rx = source.uart.rx) : Intact target (log.next event).current := by
  subst shape
  intro extended fp len opened place
  obtain ⟨pass, current, rfl⟩ := Option.map_eq_some_iff.mp opened
  rw [window_data, rx, ← window_data]
  exact intact pass fp len current (pc.symm.trans place)

theorem intact_step {source target : HidState} {event : HidEvent}
    {log : PassLog (List UInt8) HandlerAct} (streaming : Streaming source.uart)
    (good : ∀ edge, uartEdge ⟨source, event, target⟩ = some edge → CommitsBelow edge)
    (tracked : Tracked source log.current) (intact : Intact source log.current)
    (taken : hidStep source event = some target) :
    Intact target (log.next (handlerEvent ⟨source, event, target⟩)).current := by
  obtain ⟨calls, _, move⟩ := hidStep_move taken
  cases move with
  | irq byte txDone now =>
      intro pass fp len opened pc
      have kept := streaming.presented_kept rfl (good _ rfl) pc
      rw [window_data]
      exact kept.trans ((window_data source fp len.toNat).symm.trans (intact pass fp len opened pc))
  | process place outside =>
      intro pass fp len opened pc
      cases pc
  | statement now uart place stepped =>
      obtain ⟨_, popping | ⟨elsewhere, noHandler⟩⟩ := statement_place stepped
      · rw [handlerEvent_pop popping]
        intro pass fp len opened
        cases opened
      · rw [handlerEvent_statement elsewhere]
        intro pass fp len opened
        rw [PassLog.next, (tracked.outside elsewhere noHandler).2] at opened
        cases opened
  | check fp len pc handler =>
      rw [handlerEvent_check pc]
      intro pass fp' len' opened place
      cases opened
      cases pc.symm.trans place
      rfl
  | push connected accepted fp len call rest pc handler =>
      exact intact.act _ (handlerEvent_push pc handler connected accepted) rfl rfl
  | echo fp len pc handler => exact intact.act _ (handlerEvent_echo pc) rfl rfl
  | handlerReturn fp len pc handler =>
      intro pass fp' len' opened place
      cases place
  | keyCheck now place outside =>
      rw [keyCheck_frame]
      exact intact
  | scan gpioRead now place =>
      rw [switchScan_frame]
      exact intact

section Runs

variable {gpioRead : UInt32} {edges : List HidTransition} {final : HidState}

theorem streaming_run (run : HidRun gpioRead edges final)
    (below : ∀ edge ∈ uartEdges edges, CommitsBelow edge) : Streaming final.uart :=
  (hid_refines_uart run).preserves (init_streaming _) streaming_step below

theorem intact_run (run : HidRun gpioRead edges final)
    (below : ∀ edge ∈ uartEdges edges, CommitsBelow edge) :
    Intact final (handlerLog edges).current := by
  induction run with
  | refl =>
      intro pass fp len opened
      cases opened
  | @tail edges source target event run taken ih =>
      rw [uartEdges_last] at below
      have earlier := fun edge member => below edge (List.mem_append_left _ member)
      rw [handlerLog, passLog_last]
      refine intact_step (streaming_run run earlier) (fun edge own => ?_) (logged_run run).tracked
        (ih earlier) taken
      exact below edge (List.mem_append_right _ (Option.mem_toList.mpr own))

/-- Below overrun an echo fits when there is room for it. -/
theorem fits_iff_room (run : HidRun gpioRead edges final)
    (below : ∀ edge ∈ uartEdges edges, CommitsBelow edge) :
    Throughout EchoFits edges ↔
      ∀ edge ∈ edges, edge.event = .echo → edge.source.uart.tx.backlog < 8 := by
  constructor
  · intro fits edge member echo
    obtain ⟨before, rest, rfl⟩ := List.append_of_mem member
    obtain ⟨earlier, taken, _⟩ := run.split
    obtain ⟨source, event, target⟩ := edge
    dsimp only at echo taken
    subst echo
    obtain ⟨calls, _, move⟩ := hidStep_move taken
    cases move with
    | echo fp len pc handler =>
        obtain ⟨_, _, pass, _, current, _, _⟩ := (logged_run earlier).tracked.underway handler
        exact (fits before _ rest rfl rfl fp len pass pc current).1
  · rintro room before edge rest rfl echo fp len pass pc current
    obtain ⟨earlier, _, _⟩ := run.split
    have belowEarlier : ∀ other ∈ uartEdges before, CommitsBelow other := by
      intro other member
      refine below other ?_
      rw [uartEdges, List.filterMap_append]
      exact List.mem_append_left _ member
    exact ⟨room edge (List.mem_append_right _ List.mem_cons_self) echo,
      (streaming_run earlier belowEarlier).presented_length pc,
      intact_run earlier belowEarlier pass fp len current pc⟩

/--
Below overrun of the receive ring, the packets queued are the frames popped if
every echo finds room in the transmit ring; and between packets they are only
then.
-/
theorem frames_echoed_iff_room (run : HidRun gpioRead edges final)
    (below : ∀ edge ∈ uartEdges edges, CommitsBelow edge) :
    ((∀ edge ∈ edges, edge.event = .echo → edge.source.uart.tx.backlog < 8) →
      FramesEchoed edges) ∧
    ((handlerLog edges).current = none → (FramesEchoed edges ↔
      ∀ edge ∈ edges, edge.event = .echo → edge.source.uart.tx.backlog < 8)) := by
  rw [← fits_iff_room run below]
  exact ⟨framesEchoed_of_fits run, fun between =>
    ⟨fits_of_framesEchoed run between, framesEchoed_of_fits run⟩⟩

end Runs

end Ser2Ble.Ser2Hid
