import Ser2Ble.App.MainLoop
import Ser2Ble.Library.HoldTimer

/-!
# The button of ser2ble

A press of the debounced button arms `key_tick`, a call of `ser2ble_process`
more than three seconds later drops the link, and a release before that steps
the baud rate.
-/

namespace Ser2Ble.App

open Library Proj YsRom YsSwitch YsUart

/-! ## What a run shows -/

/-- Three seconds, the argument of `clock_time_exceed`, in ticks. -/
def holdSpan : Nat := 48000000

/-- Presses and releases are changes of the debounced value; every `ser2ble_process` is a poll. -/
def buttonInput (edge : AppTransition) : Option HoldTimer.Input :=
  match edge.event with
  | .keyCheck now => some (.poll now)
  | .scan _ now =>
      if edge.target.switch.value = edge.source.switch.value then none
      else if edge.target.switch.value = 0 then some (.press now)
      else some .release
  | _ => none

def ButtonCall.outcome : ButtonCall → HoldTimer.Outcome
  | .bleDisconnect => .long
  | .ysUartSetBaud _ => .short

def buttonOutcome (edge : AppTransition) : Option HoldTimer.Outcome :=
  (buttonCall edge).map ButtonCall.outcome

/-- The switch is debounced from its level at registration on. -/
def Switched (s : AppState) : Prop :=
  ∃ initial samples, Debounced () initial samples s.switch

/-! ## The parts of a step -/

theorem nusOnCommandData_button (s : AppState) (packet : RfPacketAttWrite) :
    (nusOnCommandData s packet).keyTick = s.keyTick ∧
      (nusOnCommandData s packet).switch = s.switch := by
  unfold nusOnCommandData bleNusCmdHandler
  split
  · dsimp only
    split
    · split <;> exact ⟨rfl, rfl⟩
    · exact ⟨rfl, rfl⟩
  · exact ⟨rfl, rfl⟩

/-- The key handler moves `key_tick` as a press or a release of the timer does. -/
theorem cfgKeyHandler_moves (s : AppState) (val : UInt8) (now : Nat) :
    (ser2bleCfgKeyHandler s val now).1.switch = s.switch ∧
      HoldTimer.tickStep holdSpan s.keyTick (if val = 0 then .press now else .release) =
        ((ser2bleCfgKeyHandler s val now).1.keyTick,
          (ser2bleCfgKeyHandler s val now).2.map ButtonCall.outcome) := by
  unfold ser2bleCfgKeyHandler
  by_cases pressed : val = 0
  · rw [if_pos pressed, if_pos pressed]
    exact ⟨rfl, rfl⟩
  · rw [if_neg pressed, if_neg pressed, HoldTimer.tickStep]
    by_cases armed : s.keyTick ≠ 0
    · rw [if_pos armed, if_pos armed]
      exact ⟨rfl, rfl⟩
    · rw [if_neg armed, if_neg armed, not_not.mp armed]
      exact ⟨rfl, rfl⟩

theorem keyCheck_moves (s : AppState) (now : Nat) :
    HoldTimer.tickStep holdSpan s.keyTick (.poll now) =
      ((keyCheck s now).1.keyTick, (keyCheck s now).2.map ButtonCall.outcome) := by
  have exceed : clockTimeExceed now s.keyTick 3000000 = true ↔
      holdSpan < (Clock.reading now - s.keyTick).toNat := clockTimeExceed_iff (by decide)
  by_cases expired : s.keyTick ≠ 0 ∧ clockTimeExceed now s.keyTick 3000000 = true
  · rw [keyCheck, if_pos expired, HoldTimer.tickStep, if_pos ⟨expired.1, exceed.mp expired.2⟩]
    rfl
  · rw [keyCheck, if_neg expired, HoldTimer.tickStep,
      if_neg fun both => expired ⟨both.1, exceed.mpr both.2⟩]
    rfl

theorem switchScan_some {s : AppState} {gpioRead : UInt32} {val : UInt8}
    (called : (ysSwitchScan s.switch gpioRead).2 = some ((), val)) (now : Nat) :
    switchScan s gpioRead now =
      ser2bleCfgKeyHandler { s with switch := (ysSwitchScan s.switch gpioRead).1 } val now := by
  simp only [switchScan, called]

theorem switchScan_none {s : AppState} {gpioRead : UInt32}
    (called : (ysSwitchScan s.switch gpioRead).2 = none) (now : Nat) :
    switchScan s gpioRead now = ({ s with switch := (ysSwitchScan s.switch gpioRead).1 }, none) := by
  simp only [switchScan, called]

/-- A scan is a press or a release when the debounced value changes, and nothing otherwise. -/
theorem switchScan_moves {s : AppState} {initial : Bool} {samples : List Bool}
    (debounced : Debounced () initial samples s.switch) (gpioRead : UInt32) (now : Nat) :
    Debounced () initial (high gpioRead :: samples) (switchScan s gpioRead now).1.switch ∧
      if (switchScan s gpioRead now).1.switch.value = s.switch.value then
        (switchScan s gpioRead now).1.keyTick = s.keyTick ∧ (switchScan s gpioRead now).2 = none
      else
        HoldTimer.tickStep holdSpan s.keyTick
            (if (switchScan s gpioRead now).1.switch.value = 0 then .press now else .release) =
          ((switchScan s gpioRead now).1.keyTick,
            (switchScan s gpioRead now).2.map ButtonCall.outcome) := by
  have scanned := debounced.scan gpioRead
  have called := debounced.called gpioRead
  by_cases same : (ysSwitchScan s.switch gpioRead).1.value = s.switch.value
  · rw [if_pos same] at called
    rw [switchScan_none called now]
    dsimp only
    rw [if_pos same]
    exact ⟨scanned, rfl, rfl⟩
  · rw [if_neg same] at called
    obtain ⟨kept, moved⟩ := cfgKeyHandler_moves
      { s with switch := (ysSwitchScan s.switch gpioRead).1 }
      (ysSwitchScan s.switch gpioRead).1.value now
    rw [switchScan_some called now, kept]
    dsimp only at moved ⊢
    rw [if_neg same]
    exact ⟨scanned, moved⟩

/-! ## The device keeps a hold timer -/

theorem switched_init (flash : Nat → UInt8) (rand : Nat → UInt16) (gpioRead : UInt32) :
    Switched (ser2bleInit flash rand gpioRead) :=
  ⟨_, [], registered_debounced ysSwitchInit (by decide) () gpioRead⟩

theorem switched_step {source target : AppState} {event : AppEvent} (switched : Switched source)
    (taken : appStep source event = some target) : Switched target := by
  obtain ⟨initial, samples, debounced⟩ := switched
  obtain ⟨call, _, move⟩ := appStep_move taken
  cases move with
  | uart place named moved away => exact ⟨initial, samples, debounced⟩
  | command packet place =>
      refine ⟨initial, samples, ?_⟩
      rw [(nusOnCommandData_button source packet).2]
      exact debounced
  | keyCheck now place outside =>
      rw [keyCheck_frame]
      exact ⟨initial, samples, debounced⟩
  | scan gpioRead now place =>
      exact ⟨initial, _, (@switchScan_moves { source with place := .sdk } initial samples debounced
        gpioRead now).1⟩

theorem appStep_moves {source target : AppState} {event : AppEvent} (switched : Switched source)
    (taken : appStep source event = some target) :
    match buttonInput ⟨source, event, target⟩ with
    | none => target.keyTick = source.keyTick ∧ buttonOutcome ⟨source, event, target⟩ = none
    | some given => HoldTimer.tickStep holdSpan source.keyTick given =
        (target.keyTick, buttonOutcome ⟨source, event, target⟩) := by
  obtain ⟨initial, samples, debounced⟩ := switched
  unfold buttonOutcome
  obtain ⟨call, shown, move⟩ := appStep_move taken
  rw [shown]
  cases move with
  | uart place named moved away =>
      cases event with
      | command | keyCheck | scan => cases named
      | _ => exact ⟨rfl, rfl⟩
  | command packet place => exact ⟨(nusOnCommandData_button source packet).1, rfl⟩
  | keyCheck now place outside => exact keyCheck_moves { source with place := .scan } now
  | scan gpioRead now place =>
      have moved := (@switchScan_moves { source with place := .sdk } initial samples debounced
        gpioRead now).2
      unfold buttonInput
      dsimp only at moved ⊢
      by_cases same : (switchScan { source with place := .sdk } gpioRead now).1.switch.value =
          source.switch.value
      · rw [if_pos same] at moved ⊢
        exact ⟨moved.1, by rw [moved.2]; rfl⟩
      · rw [if_neg same] at moved ⊢
        split at moved
        · next low =>
            rw [if_pos low]
            exact moved
        · next high =>
            rw [if_neg high]
            exact moved

theorem app_drives (flash : Nat → UInt8) (rand : Nat → UInt16) (gpioRead : UInt32) :
    HoldTimer.Drives appStep (ser2bleInit flash rand gpioRead) Switched holdSpan AppState.keyTick
      buttonInput buttonOutcome where
  zero := rfl
  initial := switched_init flash rand gpioRead
  keep := switched_step
  moves := appStep_moves

/-! ## One effect for each hold -/

theorem cfgKeyHandler_baud {s : AppState} {val : UInt8} {now : Nat} {baud : UInt8}
    (called : (ser2bleCfgKeyHandler s val now).2 = some (.ysUartSetBaud baud)) :
    baud = nextBaud s.deviceConfig.baudrate ∧
      (ser2bleCfgKeyHandler s val now).1.deviceConfig.baudrate = baud := by
  unfold ser2bleCfgKeyHandler at called ⊢
  by_cases pressed : val = 0
  · rw [if_pos pressed] at called
    cases called
  · by_cases armed : s.keyTick ≠ 0
    · rw [if_neg pressed, if_pos armed] at called ⊢
      cases called
      exact ⟨rfl, rfl⟩
    · rw [if_neg pressed, if_neg armed] at called
      cases called

/-- The baud step that a call of the button code stands for. -/
theorem baud_step {source target : AppState} {event : AppEvent} {baud : UInt8}
    (taken : appStep source event = some target)
    (called : buttonCall ⟨source, event, target⟩ = some (.ysUartSetBaud baud)) :
    baud = nextBaud source.deviceConfig.baudrate ∧ target.deviceConfig.baudrate = baud := by
  obtain ⟨call, shown, move⟩ := appStep_move taken
  have made := called.symm.trans shown
  cases move with
  | uart | command => cases made
  | keyCheck now place outside =>
      unfold keyCheck at made
      split at made <;> cases made
  | scan gpioRead now place =>
      cases action : (ysSwitchScan source.switch gpioRead).2 with
      | none =>
          rw [@switchScan_none { source with place := .sdk } gpioRead action now] at made
          cases made
      | some call =>
          rw [@switchScan_some { source with place := .sdk } gpioRead call.2 action now] at made ⊢
          exact cfgKeyHandler_baud made.symm

/-- A hold with its release: a long one drops the link once, a short one steps the rate once. -/
structure OneEffect (pressed : AppTransition) (during : List AppTransition)
    (released : AppTransition) (pressedAt : Nat) : Prop where
  long : HoldTimer.Overdue holdSpan buttonInput pressedAt during →
    (pressed :: during).filterMap buttonCall = [.bleDisconnect] ∧ buttonCall released = none
  short : ¬ HoldTimer.Overdue holdSpan buttonInput pressedAt during →
    (pressed :: during).filterMap buttonCall = [] ∧
      buttonCall released =
        some (.ysUartSetBaud (nextBaud released.source.deviceConfig.baudrate)) ∧
      released.target.deviceConfig.baudrate = nextBaud released.source.deviceConfig.baudrate

/-- Every hold of a run has one effect, and there is no effect outside of a hold. -/
structure OneEffectPerHold (edges : List AppTransition) : Prop where
  hold : ∀ before pressed during released rest pressedAt,
    edges = before ++ pressed :: (during ++ released :: rest) →
    buttonInput pressed = some (.press pressedAt) →
    (∀ edge ∈ during, HoldTimer.Holding buttonInput edge) →
    buttonInput released = some .release → OneEffect pressed during released pressedAt
  idle : ∀ before edge rest, edges = before ++ edge :: rest → buttonCall edge ≠ none →
    ∃ earlier pressed during pressedAt, before = earlier ++ pressed :: during ∧
      buttonInput pressed = some (.press pressedAt) ∧
      ∀ other ∈ during, HoldTimer.Holding buttonInput other

theorem outcomes_eq (edges : List AppTransition) :
    HoldTimer.outcomes buttonOutcome edges =
      (edges.filterMap buttonCall).map ButtonCall.outcome := by
  rw [HoldTimer.outcomes, List.map_filterMap]
  rfl

theorem outcome_long {calls : List ButtonCall} (long : calls.map ButtonCall.outcome = [.long]) :
    calls = [.bleDisconnect] := by
  match calls, long with
  | [.bleDisconnect], _ => rfl

/-- Whatever else happens, the button has one effect for each hold. -/
theorem one_effect_per_hold {flash : Nat → UInt8} {rand : Nat → UInt16} {gpioRead : UInt32}
    {edges : List AppTransition} {final : AppState} (run : AppRun flash rand gpioRead edges final)
    (timely : HoldTimer.Timely AppState.keyTick buttonInput edges) : OneEffectPerHold edges := by
  have drives := app_drives flash rand gpioRead
  constructor
  · rintro before pressed during released rest pressedAt rfl press holding release
    obtain ⟨held, long, short⟩ := drives.released run timely press holding release
    refine ⟨fun overdue => ?_, fun waiting => ?_⟩
    · have fired := (held.long overdue).2
      rw [outcomes_eq] at fired
      exact ⟨outcome_long fired, Option.map_eq_none_iff.mp (long overdue)⟩
    · have quiet := (held.waiting waiting).2
      rw [outcomes_eq, List.map_eq_nil_iff] at quiet
      refine ⟨quiet, ?_⟩
      obtain ⟨call, called, kind⟩ := Option.map_eq_some_iff.mp (short waiting)
      cases call with
      | bleDisconnect => cases kind
      | ysUartSetBaud baud =>
          have member : released ∈ before ++ pressed :: (during ++ released :: rest) := by simp
          obtain ⟨stepped, stored⟩ := baud_step (run.taken member) called
          exact ⟨called.trans (by rw [stepped]), stored.trans stepped⟩
  · rintro before edge rest rfl effect
    obtain ⟨call, called⟩ := Option.ne_none_iff_exists'.mp effect
    exact drives.within_hold run timely (Option.map_eq_some_iff.mpr ⟨call, called, rfl⟩)

/-- One pass of the main loop with nothing on the UART. -/
def loopPass (now : Nat) (gpioRead : UInt32) : List AppEvent :=
  [.process, .statement now, .statement now, .statement now, .keyCheck now,
    .scan gpioRead (now + 1)]

/-- Eight passes with the button down and eight with the button up. -/
def shortPress : List AppEvent :=
  (List.range 16).flatMap fun pass => loopPass (100 * pass) (if pass < 8 then 0 else 0x20)

set_option maxRecDepth 100000 in
theorem one_effect_per_hold_shortPress :
    ∃ edges final, edges.map Edge.event = shortPress ∧
      AppRun (fun _ => 0xFF) (fun _ => 0x2211) 0x20 edges final ∧
      edges.filterMap buttonCall = [.ysUartSetBaud 5] ∧ OneEffectPerHold edges := by
  obtain ⟨final, events, run⟩ := @enabled_run _ _ appStep
    (ser2bleInit (fun _ => 0xFF) (fun _ => 0x2211) 0x20) shortPress (by decide +kernel)
  refine ⟨_, final, events, run, by decide +kernel, one_effect_per_hold run ?_⟩
  exact HoldTimer.timely_of_small (by decide +kernel) (by decide +kernel)

end Ser2Ble.App
