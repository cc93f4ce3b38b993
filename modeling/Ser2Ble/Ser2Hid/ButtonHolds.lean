import Ser2Ble.Library.HoldTimer
import Ser2Ble.Ser2Hid.MainLoop

/-!
# The button of ser2hid

A press of the debounced button sends a key-down report and arms `key_tick`; a
release sends the key-up report.  A call of `ser2hid_process` more than three
seconds after the press makes the release itself, drops the link and erases
the pairing, after which the real release does nothing.
-/

namespace Ser2Ble.Ser2Hid

open Library Proj YsSwitch YsUart

/-! ## What a run shows -/

/-- Three seconds, the argument of `clock_time_exceed`, in ticks. -/
def holdSpan : Nat := 48000000

/-- Presses and releases are changes of the debounced value; every `ser2hid_process` is a poll. -/
def buttonInput (edge : HidTransition) : Option HoldTimer.Input :=
  match edge.event with
  | .keyCheck now => some (.poll now)
  | .scan _ now =>
      if edge.target.switch.value = edge.source.switch.value then none
      else if edge.target.switch.value = 0 then some (.press now)
      else some .release
  | _ => none

/-- The calls of a release that `ser2hid_process` makes. -/
def forcedRelease : List ButtonCall :=
  [.bleSendKeyboard keyUp, .bleDisconnect, .blsSmpEraseAllParingInformation]

/-- The calls that stand for an outcome. -/
def outcomeCalls : Option HoldTimer.Outcome → List ButtonCall
  | none => []
  | some .short => [.bleSendKeyboard keyUp]
  | some .long => forcedRelease

def outcomeOf (calls : List ButtonCall) : Option HoldTimer.Outcome :=
  if calls = outcomeCalls (some .short) then some .short
  else if calls = outcomeCalls (some .long) then some .long
  else none

theorem outcomeOf_outcomeCalls (outcome : Option HoldTimer.Outcome) :
    outcomeOf (outcomeCalls outcome) = outcome := by
  rcases outcome with _ | _ | _ <;> decide

def buttonOutcome (edge : HidTransition) : Option HoldTimer.Outcome :=
  outcomeOf (buttonCalls edge)

def ButtonCall.report : ButtonCall → Option (List UInt8)
  | .bleSendKeyboard kbData => some kbData
  | _ => none

/-- The keyboard reports that the button code sends, in order. -/
def buttonReports (edges : List HidTransition) : List (List UInt8) :=
  (edges.flatMap buttonCalls).filterMap ButtonCall.report

/-! ## The parts of a step -/

/-- What an edge is to the button code. -/
inductive ButtonStep (edge : HidTransition) : Prop where
  | quiet (input : buttonInput edge = none)
      (value : edge.target.switch.value = edge.source.switch.value)
      (tick : edge.target.keyTick = edge.source.keyTick) (calls : buttonCalls edge = [])
  | press (now : Nat) (input : buttonInput edge = some (.press now))
      (raised : edge.source.switch.value ≠ 0) (value : edge.target.switch.value = 0)
      (tick : edge.target.keyTick = Clock.stamp now)
      (calls : buttonCalls edge = [.bleSendKeyboard keyDown])
  | release (outcome : Option HoldTimer.Outcome) (input : buttonInput edge = some .release)
      (moved : HoldTimer.tickStep holdSpan edge.source.keyTick .release =
        (edge.target.keyTick, outcome)) (calls : buttonCalls edge = outcomeCalls outcome)
  | poll (now : Nat) (outcome : Option HoldTimer.Outcome)
      (input : buttonInput edge = some (.poll now))
      (value : edge.target.switch.value = edge.source.switch.value)
      (moved : HoldTimer.tickStep holdSpan edge.source.keyTick (.poll now) =
        (edge.target.keyTick, outcome)) (calls : buttonCalls edge = outcomeCalls outcome)

theorem keyCheck_moves (s : HidState) (now : Nat) :
    (keyCheck s now).1.switch = s.switch ∧ ∃ outcome,
      HoldTimer.tickStep holdSpan s.keyTick (.poll now) = ((keyCheck s now).1.keyTick, outcome) ∧
        (keyCheck s now).2 = outcomeCalls outcome := by
  have exceed : clockTimeExceed now s.keyTick 3000000 = true ↔
      holdSpan < (Clock.reading now - s.keyTick).toNat := clockTimeExceed_iff (by decide)
  by_cases expired : s.keyTick ≠ 0 ∧ clockTimeExceed now s.keyTick 3000000 = true
  · have released : ser2hidCfgKeyHandler s 1 now =
        ({ s with keyTick := 0 }, [.bleSendKeyboard keyUp]) := by
      rw [ser2hidCfgKeyHandler, if_neg (by decide), if_pos expired.1]
    rw [keyCheck, if_pos expired, released, HoldTimer.tickStep,
      if_pos ⟨expired.1, exceed.mp expired.2⟩]
    exact ⟨rfl, some .long, rfl, rfl⟩
  · rw [keyCheck, if_neg expired, HoldTimer.tickStep,
      if_neg fun both => expired ⟨both.1, exceed.mpr both.2⟩]
    exact ⟨rfl, none, rfl, rfl⟩

theorem cfgKeyHandler_release (s : HidState) {val : UInt8} (raised : val ≠ 0) (now : Nat) :
    ∃ outcome, HoldTimer.tickStep holdSpan s.keyTick .release =
        ((ser2hidCfgKeyHandler s val now).1.keyTick, outcome) ∧
      (ser2hidCfgKeyHandler s val now).2 = outcomeCalls outcome := by
  rw [ser2hidCfgKeyHandler, if_neg raised, HoldTimer.tickStep]
  by_cases armed : s.keyTick ≠ 0
  · rw [if_pos armed, if_pos armed]
    exact ⟨some .short, rfl, rfl⟩
  · rw [if_neg armed, if_neg armed, not_not.mp armed]
    exact ⟨none, rfl, rfl⟩

theorem switchScan_some {s : HidState} {gpioRead : UInt32} {val : UInt8}
    (called : (ysSwitchScan s.switch gpioRead).2 = some ((), val)) (now : Nat) :
    switchScan s gpioRead now =
      ser2hidCfgKeyHandler { s with switch := (ysSwitchScan s.switch gpioRead).1 } val now := by
  simp only [switchScan, called]

theorem switchScan_none {s : HidState} {gpioRead : UInt32}
    (called : (ysSwitchScan s.switch gpioRead).2 = none) (now : Nat) :
    switchScan s gpioRead now = ({ s with switch := (ysSwitchScan s.switch gpioRead).1 }, []) := by
  simp only [switchScan, called]

/-- The switch is debounced from its level at registration on. -/
def Switched (s : HidState) : Prop :=
  ∃ initial samples, Debounced () initial samples s.switch

theorem switched_step {source target : HidState} {event : HidEvent} (switched : Switched source)
    (taken : hidStep source event = some target) : Switched target := by
  obtain ⟨initial, samples, debounced⟩ := switched
  obtain ⟨calls, _, move⟩ := hidStep_move taken
  cases move with
  | keyCheck now place outside =>
      rw [keyCheck_frame]
      exact ⟨initial, samples, debounced⟩
  | scan gpioRead now place =>
      rw [switchScan_frame]
      exact ⟨initial, _, debounced.scan gpioRead⟩
  | _ => exact ⟨initial, samples, debounced⟩

theorem hidStep_button {source target : HidState} {event : HidEvent} (switched : Switched source)
    (taken : hidStep source event = some target) : ButtonStep ⟨source, event, target⟩ := by
  obtain ⟨initial, samples, debounced⟩ := switched
  obtain ⟨calls, shown, move⟩ := hidStep_move taken
  cases move with
  | keyCheck now place outside =>
      obtain ⟨kept, outcome, moved, calls⟩ := keyCheck_moves { source with place := .scan } now
      exact .poll now outcome rfl (congrArg SwitchSts.value kept) moved (shown.trans calls)
  | scan gpioRead now place =>
      have called := debounced.called gpioRead
      generalize scanned : (ysSwitchScan source.switch gpioRead).1 = entry at called
      by_cases same : entry.value = source.switch.value
      · rw [if_pos same] at called
        have moved := @switchScan_none { source with place := .sdk } gpioRead called now
        dsimp only at moved
        rw [scanned] at moved
        rw [moved] at shown ⊢
        exact .quiet (if_pos same) same rfl shown
      · rw [if_neg same] at called
        have moved := @switchScan_some { source with place := .sdk } gpioRead _ called now
        dsimp only at moved
        rw [scanned] at moved
        rw [moved, cfgKeyHandler_frame] at shown ⊢
        by_cases low : entry.value = 0
        · rw [low, ser2hidCfgKeyHandler, if_pos rfl] at shown ⊢
          have raised : source.switch.value ≠ 0 := fun zero => same (low.trans zero.symm)
          exact .press now ((if_neg same).trans (if_pos low)) raised low rfl shown
        · obtain ⟨outcome, stepped, calls⟩ :=
            cfgKeyHandler_release { source with switch := entry, place := .sdk } low now
          exact .release outcome ((if_neg same).trans (if_neg low)) stepped (shown.trans calls)
  | _ => exact .quiet rfl rfl rfl shown

/-! ## The device keeps a hold timer -/

theorem switched_init (gpioRead : UInt32) : Switched (ser2hidInit gpioRead) :=
  ⟨_, [], registered_debounced ysSwitchInit (by decide) () gpioRead⟩

theorem ButtonStep.moves {edge : HidTransition} (step : ButtonStep edge) :
    match buttonInput edge with
    | none => edge.target.keyTick = edge.source.keyTick ∧ buttonOutcome edge = none
    | some given => HoldTimer.tickStep holdSpan edge.source.keyTick given =
        (edge.target.keyTick, buttonOutcome edge) := by
  cases step with
  | quiet input value tick calls =>
      rw [input, buttonOutcome, calls]
      exact ⟨tick, rfl⟩
  | press now input raised value tick calls =>
      rw [input, buttonOutcome, calls, tick]
      rfl
  | release outcome input moved calls =>
      rw [input, buttonOutcome, calls, outcomeOf_outcomeCalls]
      exact moved
  | poll now outcome input value moved calls =>
      rw [input, buttonOutcome, calls, outcomeOf_outcomeCalls]
      exact moved

theorem hid_drives (gpioRead : UInt32) :
    HoldTimer.Drives hidStep (ser2hidInit gpioRead) Switched holdSpan HidState.keyTick buttonInput
      buttonOutcome where
  zero := rfl
  initial := switched_init gpioRead
  keep := switched_step
  moves switched taken := (hidStep_button switched taken).moves

/-- Apart from a press, the calls of an edge are those of its outcome. -/
theorem ButtonStep.calls_eq {edge : HidTransition} (step : ButtonStep edge)
    (notPress : ∀ now, buttonInput edge ≠ some (.press now)) :
    buttonCalls edge = outcomeCalls (buttonOutcome edge) := by
  cases step with
  | quiet input value tick calls =>
      rw [buttonOutcome, calls]
      rfl
  | press now input raised value tick calls => exact absurd input (notPress now)
  | release outcome input moved calls | poll now outcome input value moved calls =>
      rw [buttonOutcome, calls, outcomeOf_outcomeCalls]

/-! ## The reports come in pairs -/

/-- Down and up in turn, down first; `pressed` tells whether the last down is still without its up. -/
structure Paired (reports : List (List UInt8)) (pressed : Prop) : Prop where
  known : ∀ report ∈ reports, report = keyDown ∨ report = keyUp
  alternate : reports.IsChain fun report next => report ≠ next
  first : ∀ report, reports.head? = some report → report = keyDown
  unpaired : pressed ↔ reports.getLast? = some keyDown

section Paired

variable {reports : List (List UInt8)} {pressed after : Prop}

theorem Paired.append (paired : Paired reports pressed) {report : List UInt8}
    (known : report = keyDown ∨ report = keyUp)
    (different : ∀ last, reports.getLast? = some last → last ≠ report)
    (start : reports = [] → report = keyDown) (unpaired : after ↔ report = keyDown) :
    Paired (reports ++ [report]) after := by
  refine ⟨?_, ?_, ?_, ?_⟩
  · exact forall_mem_last paired.known known
  · rw [List.isChain_append]
    refine ⟨paired.alternate, List.isChain_singleton report, ?_⟩
    rintro last shown next head
    cases head
    exact different last shown
  · intro other head
    cases reports with
    | nil =>
        cases head
        exact start rfl
    | cons first rest => exact paired.first other head
  · rw [List.getLast?_concat, unpaired, Option.some.injEq]

/-- A key-down goes after a key-up, or first. -/
theorem Paired.down (paired : Paired reports pressed) (idle : ¬ pressed) (now : after) :
    Paired (reports ++ [keyDown]) after := by
  refine paired.append (Or.inl rfl) ?_ (fun _ => rfl) (iff_of_true now rfl)
  rintro last shown rfl
  exact idle (paired.unpaired.mpr shown)

/-- A key-up goes after its key-down. -/
theorem Paired.up (paired : Paired reports pressed) (held : pressed) (cleared : ¬ after) :
    Paired (reports ++ [keyUp]) after := by
  have down := paired.unpaired.mp held
  refine paired.append (Or.inr rfl) ?_ ?_ (iff_of_false cleared (by decide))
  · intro last shown
    rw [down] at shown
    cases shown
    decide
  · rintro rfl
    cases down

theorem Paired.congr (paired : Paired reports pressed) (same : after ↔ pressed) :
    Paired reports after :=
  ⟨paired.known, paired.alternate, paired.first, same.trans paired.unpaired⟩

end Paired

theorem buttonReports_last (edges : List HidTransition) (edge : HidTransition) :
    buttonReports (edges ++ [edge]) =
      buttonReports edges ++ (buttonCalls edge).filterMap ButtonCall.report := by
  rw [buttonReports, List.flatMap_append, List.filterMap_append, List.flatMap_singleton]
  rfl

/-- Nothing is armed while the debounced level is high. -/
def Disarmed (s : HidState) : Prop :=
  s.switch.value ≠ 0 → s.keyTick = 0

theorem ButtonStep.disarmed {edge : HidTransition} (step : ButtonStep edge)
    (disarmed : Disarmed edge.source) : Disarmed edge.target := by
  intro raised
  cases step with
  | quiet input value tick calls =>
      rw [value] at raised
      exact tick.trans (disarmed raised)
  | press now input high value tick calls => exact absurd value raised
  | release outcome input moved calls => exact (congrArg Prod.fst moved).symm
  | poll now outcome input value moved calls =>
      rw [value] at raised
      have idle := disarmed raised
      have cleared := HoldTimer.tickStep_cleared moved fun _ same => nomatch same
      cases outcome with
      | none => exact cleared.trans idle
      | some made => exact cleared.2

/-- A release or an expired poll sends the key-up of what is pressed. -/
theorem Paired.outcome {reports : List (List UInt8)} {source target : UInt32}
    {given : HoldTimer.Input} {outcome : Option HoldTimer.Outcome}
    (paired : Paired reports (source ≠ 0))
    (moved : HoldTimer.tickStep holdSpan source given = (target, outcome))
    (notPress : ∀ now, given ≠ .press now) :
    Paired (reports ++ (outcomeCalls outcome).filterMap ButtonCall.report) (target ≠ 0) := by
  have cleared := HoldTimer.tickStep_cleared moved notPress
  cases outcome with
  | none =>
      dsimp only at cleared
      rw [cleared, outcomeCalls, List.filterMap_nil, List.append_nil]
      exact paired
  | some made =>
      have sent : (outcomeCalls (some made)).filterMap ButtonCall.report = [keyUp] := by
        cases made <;> rfl
      rw [sent]
      exact paired.up cleared.1 (not_not_intro cleared.2)

theorem ButtonStep.paired {edges : List HidTransition} {edge : HidTransition}
    (step : ButtonStep edge) (disarmed : Disarmed edge.source)
    (paired : Paired (buttonReports edges) (edge.source.keyTick ≠ 0)) :
    Paired (buttonReports (edges ++ [edge])) (edge.target.keyTick ≠ 0) := by
  rw [buttonReports_last]
  cases step with
  | quiet input value tick calls =>
      rw [calls, List.filterMap_nil, List.append_nil, tick]
      exact paired
  | press now input raised value tick calls =>
      rw [calls, tick]
      exact paired.down (not_not_intro (disarmed raised)) (Clock.stamp_ne_zero now)
  | release outcome input moved calls =>
      rw [calls]
      exact paired.outcome moved fun _ same => nomatch same
  | poll now outcome input value moved calls =>
      rw [calls]
      exact paired.outcome moved fun _ same => nomatch same

/-- In every run the reports come in pairs, and `key_tick` tells whether one is open. -/
theorem paired_run {gpioRead : UInt32} {edges : List HidTransition} {final : HidState}
    (run : HidRun gpioRead edges final) :
    Paired (buttonReports edges) (final.keyTick ≠ 0) ∧ Disarmed final := by
  induction run with
  | refl =>
      have empty : ¬ ((ser2hidInit gpioRead).keyTick ≠ 0) := not_not_intro rfl
      refine ⟨⟨?_, .nil, ?_, iff_of_false empty fun last => nomatch last⟩, fun _ => rfl⟩
      · exact fun _ member => nomatch member
      · exact fun _ head => nomatch head
  | tail run taken ih =>
      have switched := run.invariant (switched_init gpioRead) switched_step
      have step := hidStep_button switched taken
      exact ⟨step.paired ih.2 ih.1, step.disarmed ih.2⟩

/-! ## One pair of reports for each hold -/

/-- From a press on: its key-down, and the forced release if a poll comes too late. -/
structure HoldReports (pressed : HidTransition) (during : List HidTransition) (pressedAt : Nat) :
    Prop where
  down : buttonCalls pressed = [.bleSendKeyboard keyDown]
  long : HoldTimer.Overdue holdSpan buttonInput pressedAt during →
    ∃ earlier forced later, during = earlier ++ forced :: later ∧
      buttonCalls forced = forcedRelease ∧ ∀ edge ∈ earlier ++ later, buttonCalls edge = []
  short : ¬ HoldTimer.Overdue holdSpan buttonInput pressedAt during →
    ∀ edge ∈ during, buttonCalls edge = []

/-- The reports of the button alternate, one pair for each hold, and only a long hold erases. -/
structure PairedHolds (edges : List HidTransition) (final : HidState) : Prop where
  reports : Paired (buttonReports edges) (final.keyTick ≠ 0)
  hold : ∀ before pressed during rest pressedAt, edges = before ++ pressed :: (during ++ rest) →
    buttonInput pressed = some (.press pressedAt) →
    (∀ edge ∈ during, HoldTimer.Holding buttonInput edge) → HoldReports pressed during pressedAt
  release : ∀ before pressed during released rest pressedAt,
    edges = before ++ pressed :: (during ++ released :: rest) →
    buttonInput pressed = some (.press pressedAt) →
    (∀ edge ∈ during, HoldTimer.Holding buttonInput edge) →
    buttonInput released = some .release →
    (HoldTimer.Overdue holdSpan buttonInput pressedAt during → buttonCalls released = []) ∧
      (¬ HoldTimer.Overdue holdSpan buttonInput pressedAt during →
        buttonCalls released = [.bleSendKeyboard keyUp])
  idle : ∀ before edge rest, edges = before ++ edge :: rest → buttonCalls edge ≠ [] →
    (∃ now, buttonInput edge = some (.press now)) ∨
      ∃ earlier pressed during pressedAt, before = earlier ++ pressed :: during ∧
        buttonInput pressed = some (.press pressedAt) ∧
        ∀ other ∈ during, HoldTimer.Holding buttonInput other

section Holds

variable {gpioRead : UInt32} {edges : List HidTransition} {final : HidState}

theorem button_step (run : HidRun gpioRead edges final) {edge : HidTransition}
    (member : edge ∈ edges) : ButtonStep edge := by
  obtain ⟨before, rest, rfl⟩ := List.append_of_mem member
  obtain ⟨earlier, taken, _⟩ := run.split
  exact hidStep_button (earlier.invariant (switched_init gpioRead) switched_step) taken

theorem press_calls {edge : HidTransition} {now : Nat} (step : ButtonStep edge)
    (press : buttonInput edge = some (.press now)) :
    buttonCalls edge = [.bleSendKeyboard keyDown] := by
  cases step with
  | press now input raised value tick calls => exact calls
  | quiet input | release outcome input | poll now outcome input =>
      rw [input] at press
      cases press

theorem not_press {edge : HidTransition} (holding : HoldTimer.Holding buttonInput edge)
    (now : Nat) : buttonInput edge ≠ some (.press now) := by
  intro press
  obtain ⟨_, impossible⟩ := holding _ press
  cases impossible

/-- The outcomes of a hold as calls. -/
theorem holdReports_of_held {before during : List HidTransition} {pressed : HidTransition}
    {pressedAt : Nat} (press : buttonInput pressed = some (.press pressedAt))
    (pressStep : ButtonStep pressed) (steps : ∀ edge ∈ during, ButtonStep edge)
    (holding : ∀ edge ∈ during, HoldTimer.Holding buttonInput edge)
    (held : HoldTimer.Held holdSpan buttonInput buttonOutcome before pressed during pressedAt) :
    HoldReports pressed during pressedAt := by
  have down := press_calls pressStep press
  have silent : buttonOutcome pressed = none := by
    rw [buttonOutcome, down]
    rfl
  have calls (edge : HidTransition) (member : edge ∈ during) :
      buttonCalls edge = outcomeCalls (buttonOutcome edge) :=
    (steps edge member).calls_eq (not_press (holding edge member))
  have quiet (edge : HidTransition) (member : edge ∈ during) (none : buttonOutcome edge = none) :
      buttonCalls edge = [] := by
    rw [calls edge member, none]
    rfl
  refine ⟨down, fun overdue => ?_, fun waiting edge member => ?_⟩
  · have fired := (held.long overdue).2
    rw [HoldTimer.outcomes, List.filterMap_cons_none silent] at fired
    obtain ⟨earlier, forced, later, rfl, first, long, last⟩ := List.filterMap_eq_cons_iff.mp fired
    rw [List.filterMap_eq_nil_iff] at last
    refine ⟨earlier, forced, later, rfl, ?_, fun edge member => quiet edge ?_ ?_⟩
    · rw [calls forced (by simp), long]
      rfl
    · rcases List.mem_append.mp member with before | after
      · exact List.mem_append_left _ before
      · exact List.mem_append_right _ (List.mem_cons_of_mem _ after)
    · rcases List.mem_append.mp member with before | after
      · exact first edge before
      · exact last edge after
  · have silent := (held.waiting waiting).2
    rw [HoldTimer.outcomes, List.filterMap_eq_nil_iff] at silent
    exact quiet edge member (silent edge (List.mem_cons_of_mem _ member))

/-- Whatever else happens, each hold of the button sends one pair of reports. -/
theorem reports_paired_per_hold (run : HidRun gpioRead edges final)
    (timely : HoldTimer.Timely HidState.keyTick buttonInput edges) : PairedHolds edges final := by
  have drives := hid_drives gpioRead
  refine ⟨(paired_run run).1, ?_, ?_, ?_⟩
  · rintro before pressed during rest pressedAt rfl press holding
    have steps (edge : HidTransition) (member : edge ∈ pressed :: during) : ButtonStep edge := by
      refine button_step run (List.mem_append_right _ ?_)
      rw [← List.cons_append]
      exact List.mem_append_left _ member
    rw [← List.cons_append, ← List.append_assoc] at run timely
    obtain ⟨middle, earlier, _⟩ := run.split_append
    have held := drives.held earlier timely.of_append press holding
    exact holdReports_of_held press (steps pressed List.mem_cons_self)
      (fun edge member => steps edge (List.mem_cons_of_mem _ member)) holding held
  · rintro before pressed during released rest pressedAt rfl press holding release
    obtain ⟨_, long, short⟩ := drives.released run timely press holding release
    have step : ButtonStep released := button_step run (by simp)
    have notPress (now : Nat) : buttonInput released ≠ some (.press now) := by
      rw [release]
      exact fun impossible => nomatch impossible
    rw [step.calls_eq notPress]
    refine ⟨fun overdue => ?_, fun waiting => ?_⟩
    · rw [long overdue]
      rfl
    · rw [short waiting]
      rfl
  · rintro before edge rest rfl called
    have step : ButtonStep edge := button_step run (by simp)
    by_cases press : ∃ now, buttonInput edge = some (.press now)
    · exact Or.inl press
    · right
      rw [step.calls_eq (not_exists.mp press)] at called
      cases made : buttonOutcome edge with
      | none =>
          rw [made] at called
          exact absurd rfl called
      | some outcome => exact drives.within_hold run timely made

end Holds

/-- One pass of the main loop with nothing on the UART. -/
def loopPass (now : Nat) (gpioRead : UInt32) : List HidEvent :=
  [.process, .statement now, .statement now, .statement now, .keyCheck now,
    .scan gpioRead (now + 1)]

/-- Eight passes with the button down, one more after three seconds, and eight with it up. -/
def longPress : List HidEvent :=
  ((List.range 8).flatMap fun pass => loopPass (100 * pass) 0) ++ loopPass 50000000 0 ++
    (List.range 8).flatMap fun pass => loopPass (50000100 + 100 * pass) 0x20

set_option maxRecDepth 100000 in
theorem reports_paired_per_hold_longPress :
    ∃ edges final, edges.map Edge.event = longPress ∧ HidRun 0x20 edges final ∧
      edges.flatMap buttonCalls = .bleSendKeyboard keyDown :: forcedRelease ∧
      PairedHolds edges final := by
  obtain ⟨final, events, run⟩ := @enabled_run _ _ hidStep (ser2hidInit 0x20) longPress
    (by decide +kernel)
  refine ⟨_, final, events, run, by decide +kernel, reports_paired_per_hold run ?_⟩
  exact HoldTimer.timely_of_small (by decide +kernel) (by decide +kernel)

end Ser2Ble.Ser2Hid
