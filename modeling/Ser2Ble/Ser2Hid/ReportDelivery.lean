import Mathlib.Data.List.Nodup
import Ser2Ble.Ser2Hid.Passes

/-!
# Reports refused by the stack

The helpers drop the answer of `bls_att_pushNotifyData` and the handler always
returns 0, so every tested packet is popped.  On a link that stays connected
no report is lost exactly when the stack refuses none; the handler of ser2ble
returns the answer of its send and so keeps a refused packet at the head.
-/

namespace Ser2Ble.Ser2Hid

open Library Proj YsUart

/-! ## Lost reports -/

def Attempt.accepted (attempt : Attempt) : Bool :=
  decide (attempt.answer = some true)

/-- The newest report of a kind. -/
def lastReport (kind : ReportKind) (attempts : List Attempt) : Option Notification :=
  ((attempts.filter fun attempt => attempt.call.kind = kind).getLast?).map Attempt.notification

/--
A packet is popped only when all that it calls for has been accepted, so
between packets the last accepted report of each kind is the last one that a
popped packet called for.
-/
structure NoReportLost (edges : List HidTransition) : Prop where
  accepted : ∀ pass ∈ popped edges, ∀ call ∈ calledFor pass.header,
    ∃ attempt ∈ attemptsOf pass, attempt.call = call ∧ attempt.accepted = true
  agrees : (handlerLog edges).current = none → ∀ kind : ReportKind,
    lastReport kind ((attempts edges).filter Attempt.accepted) =
      lastReport kind ((popped edges).flatMap attemptsOf)

/-- The link is connected if a helper looks at it. -/
def HidEvent.linked : HidEvent → Bool
  | .push connected _ => connected
  | _ => true

def Linked (edge : HidTransition) : Prop :=
  edge.event.linked = true

instance (edge : HidTransition) : Decidable (Linked edge) :=
  inferInstanceAs (Decidable (_ = true))

/-- `bls_att_pushNotifyData` returns an error. -/
def HidEvent.refused : HidEvent → Bool
  | .push connected accepted => connected && !accepted
  | _ => false

def Refused (edge : HidTransition) : Prop :=
  edge.event.refused = true

instance (edge : HidTransition) : Decidable (Refused edge) :=
  inferInstanceAs (Decidable (_ = true))

/-! ## The attempts of the passes -/

theorem attempt_none {edge : HidTransition}
    (noPush : ∀ connected accepted, edge.event ≠ .push connected accepted) :
    attempt edge = none := by
  unfold attempt
  split
  · next event _ _ => exact absurd event (noPush _ _)
  · rfl

theorem attempt_eq (edge : HidTransition) :
    attempt edge = (handlerEvent edge).acted.bind HandlerAct.attempt := by
  unfold handlerEvent
  split
  · next event _ => exact attempt_none (by rw [event]; nofun)
  · cases attempt edge <;> rfl
  · next event _ => exact attempt_none (by rw [event]; nofun)
  · next event _ => exact attempt_none (by rw [event]; nofun)
  · next noPush _ _ _ => exact attempt_none fun connected accepted event => noPush _ _ event

theorem attempts_eq {edges : List HidTransition} (orderly : Orderly handlerEvent edges) :
    attempts edges = (handlerLog edges).passes.flatMap attemptsOf := by
  calc attempts edges
      = (edges.filterMap fun edge => (handlerEvent edge).acted).filterMap HandlerAct.attempt := by
          rw [List.filterMap_filterMap, attempts]
          exact List.filterMap_congr fun edge _ => attempt_eq edge
    _ = (handlerLog edges).acts.filterMap HandlerAct.attempt := by
          rw [← passLog_acts orderly]
          rfl
    _ = (handlerLog edges).passes.flatMap attemptsOf := by
          rw [PassLog.acts, List.filterMap_flatMap]
          rfl

/-- On a link that stays connected, an attempt fails exactly when the stack refuses it. -/
theorem attempt_push_iff {source target : HidState} {event : HidEvent}
    (taken : hidStep source event = some target) (linked : Linked ⟨source, event, target⟩) :
    (∃ made, attempt ⟨source, event, target⟩ = some made ∧ made.accepted = false) ↔
      Refused ⟨source, event, target⟩ := by
  by_cases push : ∃ connected accepted, event = .push connected accepted
  · obtain ⟨connected, accepted, rfl⟩ := push
    obtain ⟨calls, _, move⟩ := hidStep_move taken
    cases move with
    | push _ _ fp len call rest pc handler =>
        rw [attempt_push pc handler]
        cases connected with
        | false => cases linked
        | true => cases accepted <;> simp [Refused, HidEvent.refused, Attempt.accepted]
  · rw [attempt_none fun connected accepted same => push ⟨connected, accepted, same⟩]
    refine iff_of_false (fun ⟨_, made, _⟩ => nomatch made) fun refused => ?_
    cases event with
    | push connected accepted => exact push ⟨connected, accepted, rfl⟩
    | _ => cases refused

theorem sendCalls_nodup (command : UInt8) : (sendCalls command).Nodup := by
  unfold sendCalls
  split_ifs <;> decide

theorem calledFor_nodup (packet : List UInt8) : (calledFor packet).Nodup := by
  unfold calledFor
  split
  · rw [← sendCalls_eq_requested]
    exact sendCalls_nodup _
  · exact List.nodup_nil

/-- In a finished pass an attempt is the only one for its helper. -/
theorem Complete.unique {pass : HandlerPass} (complete : Complete pass) {first second : Attempt}
    (one : first ∈ attemptsOf pass) (two : second ∈ attemptsOf pass)
    (same : first.call = second.call) : first = second := by
  have distinct := calledFor_nodup pass.header
  rw [← complete.calls] at distinct
  exact List.inj_on_of_nodup_map distinct one two same

/-! ## No refusal, no loss -/

section Delivery

variable {gpioRead : UInt32} {edges : List HidTransition} {final : HidState}

/-- Every attempt is accepted exactly when there is no refusal. -/
theorem all_accepted_iff (run : HidRun gpioRead edges final) (linked : ∀ edge ∈ edges, Linked edge) :
    (∀ made ∈ attempts edges, made.accepted = true) ↔ ∀ edge ∈ edges, ¬ Refused edge := by
  have failed (edge : HidTransition) (member : edge ∈ edges) :=
    attempt_push_iff (run.taken member) (linked edge member)
  constructor
  · intro accepted edge member refused
    obtain ⟨made, shown, wrong⟩ := (failed edge member).mpr refused
    rw [accepted made (List.mem_filterMap.mpr ⟨edge, member, shown⟩)] at wrong
    cases wrong
  · intro none made attempted
    obtain ⟨edge, member, shown⟩ := List.mem_filterMap.mp attempted
    by_contra wrong
    exact none edge member
      ((failed edge member).mp ⟨made, shown, Bool.eq_false_iff.mpr wrong⟩)

theorem noReportLost_of_accepted (logged : Logged edges final)
    (accepted : ∀ made ∈ attempts edges, made.accepted = true) : NoReportLost edges := by
  have shape := attempts_eq logged.orderly
  constructor
  · intro pass member call called
    rw [← (logged.complete pass member).calls] at called
    obtain ⟨made, inside, rfl⟩ := List.mem_map.mp called
    refine ⟨made, inside, rfl, accepted made ?_⟩
    rw [shape]
    exact List.mem_flatMap.mpr ⟨pass, List.mem_append_left _ member, inside⟩
  · intro none kind
    rw [List.filter_eq_self.mpr accepted, shape, PassLog.passes, none, Option.toList_none,
      List.append_nil]
    rfl

theorem accepted_of_noReportLost (logged : Logged edges final)
    (none : (handlerLog edges).current = none) (kept : NoReportLost edges) :
    ∀ made ∈ attempts edges, made.accepted = true := by
  intro made attempted
  rw [attempts_eq logged.orderly, PassLog.passes, none, Option.toList_none, List.append_nil]
    at attempted
  obtain ⟨pass, member, inside⟩ := List.mem_flatMap.mp attempted
  have complete := logged.complete pass member
  have called : made.call ∈ calledFor pass.header := by
    rw [← complete.calls]
    exact List.mem_map_of_mem inside
  obtain ⟨other, among, same, accepted⟩ := kept.accepted pass member made.call called
  rw [complete.unique inside among same.symm]
  exact accepted

/--
Without a refusal no report is lost, and between packets none is lost only
without a refusal.
-/
theorem no_report_lost_iff (run : HidRun gpioRead edges final)
    (linked : ∀ edge ∈ edges, Linked edge) :
    ((∀ edge ∈ edges, ¬ Refused edge) → NoReportLost edges) ∧
      ((handlerLog edges).current = none →
        (NoReportLost edges ↔ ∀ edge ∈ edges, ¬ Refused edge)) := by
  have logged := logged_run run
  have exactly := all_accepted_iff run linked
  have enough (unrefused : ∀ edge ∈ edges, ¬ Refused edge) : NoReportLost edges :=
    noReportLost_of_accepted logged (exactly.mpr unrefused)
  refine ⟨enough, fun none => ⟨fun kept => ?_, enough⟩⟩
  exact exactly.mp (accepted_of_noReportLost logged none kept)

end Delivery

/-- A frame for the system report. -/
def systemFrame (low : UInt8) : List UInt8 := [0xA5, 0x73, 2, low, 0, 0]

/-- Such a frame arrives, and a pass of the main loop handles and pops it. -/
def systemPass (start : Nat) (low : UInt8) (accepted : Bool) : List HidEvent :=
  arrival start (systemFrame low) ++ .process ::
    List.replicate 3 (.statement (start + 30000)) ++
    [.check, .push true accepted, .echo, .handlerReturn, .statement (start + 30000)]

/-- A key is pressed and released, and both reports are accepted. -/
def pressAndRelease : List HidEvent :=
  systemPass 0 1 true ++ restOfPass 30000 8 ++ systemPass 40000 0 true

set_option maxRecDepth 100000 in
theorem no_report_lost_iff_pressAndRelease :
    ∃ edges final, edges.map Edge.event = pressAndRelease ∧ HidRun 0x20 edges final ∧
      (handlerLog edges).current = none ∧ (popped edges).map Pass.header =
        [systemFrame 1, systemFrame 0] ∧ NoReportLost edges := by
  obtain ⟨final, events, run⟩ := @enabled_run _ _ hidStep (ser2hidInit 0x20) pressAndRelease
    (by decide +kernel)
  refine ⟨_, final, events, run, by decide +kernel, by decide +kernel, ?_⟩
  exact (no_report_lost_iff run (by decide +kernel)).1 (by decide +kernel)

/-- A key is pressed, and the report of its release is refused. -/
def refusedRelease : List HidEvent :=
  systemPass 0 1 true ++ restOfPass 30000 8 ++ systemPass 40000 0 false

set_option maxRecDepth 100000 in
theorem release_lost :
    ∃ edges final, edges.map Edge.event = refusedRelease ∧ HidRun 0x20 edges final ∧
      (∀ edge ∈ edges, Linked edge) ∧
      lastReport .system ((attempts edges).filter Attempt.accepted) =
        some ⟨.hidSystemReportInputDpH, [1, 0]⟩ ∧
      lastReport .system ((popped edges).flatMap attemptsOf) =
        some ⟨.hidSystemReportInputDpH, [0, 0]⟩ ∧
      ¬ NoReportLost edges := by
  obtain ⟨final, events, run⟩ := @enabled_run _ _ hidStep (ser2hidInit 0x20) refusedRelease
    (by decide +kernel)
  refine ⟨_, final, events, run, by decide +kernel, by decide +kernel, by decide +kernel, ?_⟩
  intro kept
  exact absurd (kept.agrees (by decide +kernel) .system) (by decide +kernel)

end Ser2Ble.Ser2Hid
