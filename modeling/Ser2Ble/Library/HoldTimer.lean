import Ser2Ble.Library.Clock
import Ser2Ble.Library.Run

/-!
# Short and long presses

A press arms a timer, a poll that finds it expired makes the press a long one,
and a release while it is still armed makes it a short one.  The timer itself
is a 32-bit stamp that is zero while nothing is armed; with increasing readings
and holds shorter than the range of the counter it behaves as the unbounded one.
-/

namespace Ser2Ble.Library.HoldTimer

inductive Input where
  | press (now : Nat)
  | release
  | poll (now : Nat)

inductive Outcome where
  | short
  | long
  deriving DecidableEq

/-! ## The unbounded timer -/

/-- The timer holds the tick at which it was armed; `span` is what a press may last. -/
def step (span : Nat) : Option Nat → Input → Option Nat × Option Outcome
  | _, .press now => (some now, none)
  | none, .release => (none, none)
  | some _, .release => (none, some .short)
  | none, .poll _ => (none, none)
  | some start, .poll now =>
      if span < now - (start ||| 1) then (none, some .long) else (some start, none)

/-- The timer after a list of inputs. -/
def after (span : Nat) : Option Nat → List Input → Option Nat
  | armed, [] => armed
  | armed, input :: rest => after span (step span armed input).1 rest

theorem after_append (span : Nat) (armed : Option Nat) (first second : List Input) :
    after span armed (first ++ second) = after span (after span armed first) second := by
  induction first generalizing armed with
  | nil => rfl
  | cons input rest ih => exact ih _

/-- Only a press arms the timer. -/
theorem armed_of_step {span start : Nat} {armed : Option Nat} {input : Input}
    (held : (step span armed input).1 = some start) :
    input = .press start ∨ armed = some start ∧ ∃ now, input = .poll now := by
  cases input with
  | press now =>
      left
      rw [Option.some.inj held]
  | release =>
      cases armed with
      | none => cases held
      | some earlier => cases held
  | poll now =>
      right
      cases armed with
      | none => cases held
      | some earlier =>
          rw [step] at held
          split at held
          · cases held
          · exact ⟨held, now, rfl⟩

/-! ## The stamp -/

/-- The timer kept in a 32-bit word. -/
def tickStep (span : Nat) (tick : UInt32) : Input → UInt32 × Option Outcome
  | .press now => (Clock.stamp now, none)
  | .release => (0, if tick ≠ 0 then some .short else none)
  | .poll now =>
      if tick ≠ 0 ∧ span < (Clock.reading now - tick).toNat then (0, some .long) else (tick, none)

/-- Apart from a press, the word is left alone, or cleared with an outcome. -/
theorem tickStep_cleared {span : Nat} {tick target : UInt32} {input : Input}
    {outcome : Option Outcome} (moved : tickStep span tick input = (target, outcome))
    (notPress : ∀ now, input ≠ .press now) :
    match outcome with
    | none => target = tick
    | some _ => tick ≠ 0 ∧ target = 0 := by
  cases input with
  | press now => exact absurd rfl (notPress now)
  | release =>
      by_cases armed : tick ≠ 0
      · rw [tickStep, if_pos armed] at moved
        cases moved
        exact ⟨armed, rfl⟩
      · rw [tickStep, if_neg armed] at moved
        cases moved
        exact (not_not.mp armed).symm
  | poll now =>
      by_cases expired : tick ≠ 0 ∧ span < (Clock.reading now - tick).toNat
      · rw [tickStep, if_pos expired] at moved
        cases moved
        exact ⟨expired.1, rfl⟩
      · rw [tickStep, if_neg expired] at moved
        cases moved
        rfl

/-- The word that stands for a timer. -/
def word : Option Nat → UInt32
  | none => 0
  | some start => Clock.stamp start

theorem word_ne_zero_iff (armed : Option Nat) : word armed ≠ 0 ↔ ∃ start, armed = some start := by
  cases armed with
  | none => exact iff_of_false (not_not_intro rfl) fun ⟨_, impossible⟩ => nomatch impossible
  | some start => exact iff_of_true (Clock.stamp_ne_zero start) ⟨start, rfl⟩

/-- On a later reading less than the range of the counter away, the word does what the timer does. -/
theorem tickStep_word (span : Nat) (armed : Option Nat) (input : Input)
    (timely : ∀ start now, armed = some start → input = .poll now →
      start < now ∧ now - start < 2 ^ 32) :
    tickStep span (word armed) input = (word (step span armed input).1, (step span armed input).2) := by
  cases input with
  | press now => rfl
  | release =>
      cases armed with
      | none => rfl
      | some start =>
          rw [tickStep, if_pos ((word_ne_zero_iff _).mpr ⟨start, rfl⟩)]
          rfl
  | poll now =>
      cases armed with
      | none => rfl
      | some start =>
          obtain ⟨later, near⟩ := timely start now rfl rfl
          have bounds := Clock.or_one_le start
          have shown : (Clock.reading now - word (some start)).toNat = now - (start ||| 1) := by
            rw [word, Clock.reading_sub_stamp later, Nat.mod_eq_of_lt (by omega)]
          have nonzero : word (some start) ≠ 0 := Clock.stamp_ne_zero start
          rw [tickStep, shown, step]
          by_cases expired : span < now - (start ||| 1)
          · rw [if_pos ⟨nonzero, expired⟩, if_pos expired]
            rfl
          · rw [if_neg fun both => expired both.2, if_neg expired]

/-! ## Systems with such a timer -/

section Driven

variable {State Event : Type} {next : State → Event → Option State} {start final : State}
  {Inv : State → Prop} {span : Nat} {tick : State → UInt32}
  {input : Edge State Event → Option Input} {outcome : Edge State Event → Option Outcome}

/--
A system keeps such a timer: from a cleared word on, every edge moves the word
as its input says and shows the outcome.  `Inv` is what the system knows about
its own states.
-/
structure Drives (next : State → Event → Option State) (start : State) (Inv : State → Prop)
    (span : Nat) (tick : State → UInt32) (input : Edge State Event → Option Input)
    (outcome : Edge State Event → Option Outcome) : Prop where
  zero : tick start = 0
  initial : Inv start
  keep : ∀ {source event target}, Inv source → next source event = some target → Inv target
  moves : ∀ {source event target}, Inv source → next source event = some target →
    match input ⟨source, event, target⟩ with
    | none => tick target = tick source ∧ outcome ⟨source, event, target⟩ = none
    | some given => tickStep span (tick source) given =
        (tick target, outcome ⟨source, event, target⟩)

/-- The clock reading an input takes; a poll takes one only while the word is not zero. -/
def reading (tick : State → UInt32) (input : Edge State Event → Option Input)
    (edge : Edge State Event) : Option Nat :=
  match input edge with
  | some (.press now) => some now
  | some (.poll now) => if tick edge.source ≠ 0 then some now else none
  | _ => none

/-- The edge neither presses nor releases. -/
def Holding (input : Edge State Event → Option Input) (edge : Edge State Event) : Prop :=
  ∀ given, input edge = some given → ∃ now, given = .poll now

/-- Readings increase, and during one hold they stay within the range of the counter. -/
structure Timely (tick : State → UInt32) (input : Edge State Event → Option Input)
    (edges : List (Edge State Event)) : Prop where
  increasing : (edges.filterMap (reading tick input)).Pairwise (· < ·)
  within : ∀ before pressed during polled rest pressedAt now,
    edges = before ++ pressed :: (during ++ polled :: rest) →
    input pressed = some (.press pressedAt) → (∀ edge ∈ during, Holding input edge) →
    reading tick input polled = some now → input polled = some (.poll now) →
    now - pressedAt < 2 ^ 32

theorem Timely.of_append {edges more : List (Edge State Event)}
    (timely : Timely tick input (edges ++ more)) : Timely tick input edges := by
  refine ⟨?_, ?_⟩
  · have increasing := timely.increasing
    rw [List.filterMap_append, List.pairwise_append] at increasing
    exact increasing.1
  · intro before pressed during polled rest pressedAt now shape press holding shown poll
    refine timely.within before pressed during polled (rest ++ more) pressedAt now ?_ press holding
      shown poll
    rw [shape]
    simp only [List.append_assoc, List.cons_append]

/-- Increasing readings that do not reach the range of the counter are timely. -/
theorem timely_of_small {edges : List (Edge State Event)}
    (increasing : (edges.filterMap (reading tick input)).Pairwise (· < ·))
    (small : ∀ now ∈ edges.filterMap (reading tick input), now < 2 ^ 32) :
    Timely tick input edges := by
  refine ⟨increasing, ?_⟩
  rintro before pressed during polled rest pressedAt now rfl _ _ shown _
  have member : now ∈ (before ++ pressed :: (during ++ polled :: rest)).filterMap
      (reading tick input) :=
    List.mem_filterMap.mpr ⟨polled, by simp, shown⟩
  have bound := small now member
  omega

/-- The unbounded timer after the inputs of some edges. -/
def armed (span : Nat) (input : Edge State Event → Option Input)
    (edges : List (Edge State Event)) : Option Nat :=
  after span none (edges.filterMap input)

theorem armed_last (edges : List (Edge State Event)) (edge : Edge State Event) :
    armed span input (edges ++ [edge]) = match input edge with
      | none => armed span input edges
      | some given => (step span (armed span input edges) given).1 := by
  rw [armed, filterMap_last, after_append]
  cases input edge <;> rfl

/-- An armed timer was armed by the last press, with only polls since. -/
theorem armed_split {edges : List (Edge State Event)} {pressedAt : Nat}
    (held : armed span input edges = some pressedAt) :
    ∃ before pressed during, edges = before ++ pressed :: during ∧
      input pressed = some (.press pressedAt) ∧ ∀ edge ∈ during, Holding input edge := by
  induction edges using List.reverseRecOn with
  | nil => cases held
  | append_singleton edges edge ih =>
      rw [armed_last] at held
      cases given : input edge with
      | none =>
          rw [given] at held
          obtain ⟨before, pressed, during, rfl, press, holding⟩ := ih held
          refine ⟨before, pressed, during ++ [edge], by simp, press, forall_mem_last holding ?_⟩
          rw [Holding, given]
          exact fun _ impossible => nomatch impossible
      | some now =>
          rw [given] at held
          rcases armed_of_step held with rfl | ⟨still, polled, rfl⟩
          · exact ⟨edges, edge, [], rfl, given, fun _ member => nomatch member⟩
          · obtain ⟨before, pressed, during, rfl, press, holding⟩ := ih still
            refine ⟨before, pressed, during ++ [edge], by simp, press, forall_mem_last holding ?_⟩
            rw [Holding, given]
            exact fun _ same => ⟨polled, (Option.some.inj same).symm⟩

/-- What the unbounded timer shows on an edge. -/
def shown (span : Nat) (input : Edge State Event → Option Input)
    (before : List (Edge State Event)) (edge : Edge State Event) : Option Outcome :=
  (input edge).bind fun given => (step span (armed span input before) given).2

/-- A poll of an armed timer reads the clock after the press, and not too late. -/
theorem Timely.poll {before : List (Edge State Event)} {edge : Edge State Event}
    (timely : Timely tick input (before ++ [edge]))
    (synchronised : tick edge.source = word (armed span input before)) {pressedAt now : Nat}
    (held : armed span input before = some pressedAt) (poll : input edge = some (.poll now)) :
    pressedAt < now ∧ now - pressedAt < 2 ^ 32 := by
  have nonzero : tick edge.source ≠ 0 := by
    rw [synchronised, held]
    exact Clock.stamp_ne_zero pressedAt
  have read : reading tick input edge = some now := by
    simp only [reading, poll]
    exact if_pos nonzero
  obtain ⟨earlier, pressed, during, rfl, press, holding⟩ := armed_split held
  constructor
  · have readPress : reading tick input pressed = some pressedAt := by
      simp only [reading, press]
    have increasing := timely.increasing
    rw [List.filterMap_append, List.pairwise_append] at increasing
    refine increasing.2.2 pressedAt ?_ now ?_
    · rw [List.mem_filterMap]
      exact ⟨pressed, by simp, readPress⟩
    · rw [List.mem_filterMap]
      exact ⟨edge, List.mem_singleton_self edge, read⟩
  · exact timely.within earlier pressed during edge [] pressedAt now
      (by simp only [List.append_assoc, List.cons_append]) press holding read poll

/-- On one edge the system does what the unbounded timer does. -/
theorem Drives.edge (drives : Drives next start Inv span tick input outcome)
    {before : List (Edge State Event)} {source target : State} {event : Event}
    (inv : Inv source) (taken : next source event = some target)
    (timely : Timely tick input (before ++ [⟨source, event, target⟩]))
    (synchronised : tick source = word (armed span input before)) :
    tick target = word (armed span input (before ++ [⟨source, event, target⟩])) ∧
      outcome ⟨source, event, target⟩ = shown span input before ⟨source, event, target⟩ := by
  have moved := drives.moves inv taken
  rw [armed_last, shown]
  cases given : input ⟨source, event, target⟩ with
  | none =>
      rw [given] at moved
      exact ⟨moved.1.trans synchronised, moved.2⟩
  | some made =>
      rw [given] at moved
      have abstract := tickStep_word span (armed span input before) made fun pressedAt now held poll =>
        timely.poll synchronised held (given.trans (congrArg some poll))
      rw [← synchronised] at abstract
      have both := moved.symm.trans abstract
      exact ⟨congrArg Prod.fst both, congrArg Prod.snd both⟩

/-- Along a run the word is the one that stands for the unbounded timer. -/
theorem Drives.synchronised (drives : Drives next start Inv span tick input outcome)
    {edges : List (Edge State Event)} (run : Run next start edges final)
    (timely : Timely tick input edges) : tick final = word (armed span input edges) := by
  induction run with
  | refl => exact drives.zero
  | tail run taken ih =>
      have inv := run.invariant drives.initial drives.keep
      exact (drives.edge inv taken timely (ih timely.of_append)).1

/-- Every outcome of a run is the one of the unbounded timer. -/
theorem Drives.outcome_eq (drives : Drives next start Inv span tick input outcome)
    {before rest : List (Edge State Event)} {edge : Edge State Event}
    (run : Run next start (before ++ edge :: rest) final)
    (timely : Timely tick input (before ++ edge :: rest)) :
    outcome edge = shown span input before edge := by
  obtain ⟨first, taken, _⟩ := run.split
  have upTo : Timely tick input (before ++ [edge]) := by
    rw [List.append_cons] at timely
    exact timely.of_append
  have inv := first.invariant drives.initial drives.keep
  exact (drives.edge inv taken upTo (drives.synchronised first upTo.of_append)).2

/-! ## Holds -/

/-- Some poll among the edges comes more than `span` after the press. -/
def Overdue (span : Nat) (input : Edge State Event → Option Input) (pressedAt : Nat)
    (edges : List (Edge State Event)) : Prop :=
  ∃ edge ∈ edges, ∃ now, input edge = some (.poll now) ∧ span < now - (pressedAt ||| 1)

theorem overdue_last {pressedAt : Nat} {edges : List (Edge State Event)}
    {edge : Edge State Event} : Overdue span input pressedAt (edges ++ [edge]) ↔
      Overdue span input pressedAt edges ∨
        ∃ now, input edge = some (.poll now) ∧ span < now - (pressedAt ||| 1) := by
  constructor
  · rintro ⟨polled, member, late⟩
    rcases List.mem_append.mp member with earlier | last
    · exact Or.inl ⟨polled, earlier, late⟩
    · rw [List.mem_singleton.mp last] at late
      exact Or.inr late
  · rintro (⟨polled, member, late⟩ | late)
    · exact ⟨polled, List.mem_append_left _ member, late⟩
    · exact ⟨edge, List.mem_concat_self, late⟩

/-- The outcomes that some edges show. -/
def outcomes (outcome : Edge State Event → Option Outcome) (edges : List (Edge State Event)) :
    List Outcome :=
  edges.filterMap outcome

/-- From a press on the timer runs until a poll comes late, which is the one long outcome. -/
structure Held (span : Nat) (input : Edge State Event → Option Input)
    (outcome : Edge State Event → Option Outcome) (before : List (Edge State Event))
    (pressed : Edge State Event) (during : List (Edge State Event)) (pressedAt : Nat) : Prop where
  long : Overdue span input pressedAt during →
    armed span input (before ++ pressed :: during) = none ∧
      outcomes outcome (pressed :: during) = [.long]
  waiting : ¬ Overdue span input pressedAt during →
    armed span input (before ++ pressed :: during) = some pressedAt ∧
      outcomes outcome (pressed :: during) = []

theorem Held.first {before : List (Edge State Event)} {pressed : Edge State Event}
    {pressedAt : Nat} (press : input pressed = some (.press pressedAt))
    (observed : outcome pressed = shown span input before pressed) :
    Held span input outcome before pressed [] pressedAt := by
  have silent : outcome pressed = none := by
    rw [observed, shown, press]
    rfl
  constructor
  · rintro ⟨_, member, _⟩
    cases member
  · intro _
    rw [armed_last, press, outcomes, List.filterMap_cons_none silent, List.filterMap_nil]
    exact ⟨rfl, rfl⟩

/-- An edge without a press or a release leaves a timer alone that is not armed. -/
theorem holding_idle {before : List (Edge State Event)} {edge : Edge State Event}
    (idle : armed span input before = none) (holding : Holding input edge) :
    armed span input (before ++ [edge]) = none ∧ shown span input before edge = none := by
  rw [armed_last, shown, idle]
  cases given : input edge with
  | none => exact ⟨rfl, rfl⟩
  | some made =>
      obtain ⟨now, rfl⟩ := holding made given
      exact ⟨rfl, rfl⟩

/-- A late poll fires the timer. -/
theorem poll_late {before : List (Edge State Event)} {edge : Edge State Event}
    {pressedAt now : Nat} (running : armed span input before = some pressedAt)
    (poll : input edge = some (.poll now)) (late : span < now - (pressedAt ||| 1)) :
    armed span input (before ++ [edge]) = none ∧
      shown span input before edge = some .long := by
  have fires : step span (some pressedAt) (.poll now) = (none, some .long) := if_pos late
  rw [armed_last, shown, running, poll]
  exact ⟨congrArg Prod.fst fires, congrArg Prod.snd fires⟩

/-- With no late poll, and neither a press nor a release, the timer runs on. -/
theorem holding_early {before : List (Edge State Event)} {edge : Edge State Event}
    {pressedAt : Nat} (running : armed span input before = some pressedAt)
    (holding : Holding input edge)
    (early : ¬ ∃ now, input edge = some (.poll now) ∧ span < now - (pressedAt ||| 1)) :
    armed span input (before ++ [edge]) = some pressedAt ∧
      shown span input before edge = none := by
  rw [armed_last, shown, running]
  cases given : input edge with
  | none => exact ⟨rfl, rfl⟩
  | some made =>
      obtain ⟨now, rfl⟩ := holding made given
      have waits : step span (some pressedAt) (.poll now) = (some pressedAt, none) :=
        if_neg fun late => early ⟨now, given, late⟩
      exact ⟨congrArg Prod.fst waits, congrArg Prod.snd waits⟩

/-- A hold goes on over an edge without a press or a release. -/
theorem Held.extend {before during : List (Edge State Event)} {pressed edge : Edge State Event}
    {pressedAt : Nat} (held : Held span input outcome before pressed during pressedAt)
    (holding : Holding input edge)
    (observed : outcome edge = shown span input (before ++ pressed :: during) edge) :
    Held span input outcome before pressed (during ++ [edge]) pressedAt := by
  have shape := (List.append_assoc before (pressed :: during) [edge]).symm
  rw [List.cons_append] at shape
  have grown : outcomes outcome (pressed :: (during ++ [edge])) =
      outcomes outcome (pressed :: during) ++ (outcome edge).toList :=
    filterMap_last outcome (pressed :: during) edge
  by_cases already : Overdue span input pressedAt during
  · -- the timer has fired and is not armed again
    obtain ⟨fired, once⟩ := held.long already
    obtain ⟨still, none⟩ := holding_idle fired holding
    refine ⟨fun _ => ?_, fun waiting => absurd (overdue_last.mpr (Or.inl already)) waiting⟩
    rw [shape, grown, once, observed, none]
    exact ⟨still, rfl⟩
  · obtain ⟨running, silent⟩ := held.waiting already
    by_cases late : ∃ now, input edge = some (.poll now) ∧ span < now - (pressedAt ||| 1)
    · obtain ⟨now, poll, expired⟩ := late
      obtain ⟨fired, long⟩ := poll_late running poll expired
      refine ⟨fun _ => ?_, fun waiting => ?_⟩
      · rw [shape, grown, silent, observed, long]
        exact ⟨fired, rfl⟩
      · exact absurd (overdue_last.mpr (Or.inr ⟨now, poll, expired⟩)) waiting
    · obtain ⟨still, none⟩ := holding_early running holding late
      refine ⟨fun overdue => ?_, fun _ => ?_⟩
      · exact absurd (overdue_last.mp overdue) (not_or.mpr ⟨already, late⟩)
      · rw [shape, grown, silent, observed, none]
        exact ⟨still, rfl⟩

theorem Drives.held (drives : Drives next start Inv span tick input outcome)
    {before during : List (Edge State Event)} {pressed : Edge State Event} {pressedAt : Nat}
    (run : Run next start (before ++ pressed :: during) final)
    (timely : Timely tick input (before ++ pressed :: during))
    (press : input pressed = some (.press pressedAt))
    (holding : ∀ edge ∈ during, Holding input edge) :
    Held span input outcome before pressed during pressedAt := by
  induction during using List.reverseRecOn generalizing final with
  | nil => exact .first press (drives.outcome_eq run timely)
  | append_singleton during edge ih =>
      rw [← List.cons_append, ← List.append_assoc] at run timely
      have earlier := ih run.split.1 timely.of_append fun other member =>
        holding other (List.mem_append_left _ member)
      exact earlier.extend (holding edge List.mem_concat_self) (drives.outcome_eq run timely)

/-- What a release shows after a hold. -/
theorem Drives.released (drives : Drives next start Inv span tick input outcome)
    {before during rest : List (Edge State Event)} {pressed released : Edge State Event}
    {pressedAt : Nat}
    (run : Run next start (before ++ pressed :: (during ++ released :: rest)) final)
    (timely : Timely tick input (before ++ pressed :: (during ++ released :: rest)))
    (press : input pressed = some (.press pressedAt))
    (holding : ∀ edge ∈ during, Holding input edge) (release : input released = some .release) :
    Held span input outcome before pressed during pressedAt ∧
      (Overdue span input pressedAt during → outcome released = none) ∧
      (¬ Overdue span input pressedAt during → outcome released = some .short) := by
  rw [← List.cons_append, ← List.append_assoc] at run timely
  have held := drives.held run.split.1 timely.of_append press holding
  have observed := drives.outcome_eq run timely
  rw [shown, release] at observed
  refine ⟨held, fun overdue => ?_, fun waiting => ?_⟩
  · rw [observed, (held.long overdue).1]
    rfl
  · rw [observed, (held.waiting waiting).1]
    rfl

/-- An outcome comes in a hold: after a press, with only polls in between. -/
theorem Drives.within_hold (drives : Drives next start Inv span tick input outcome)
    {before rest : List (Edge State Event)} {edge : Edge State Event} {made : Outcome}
    (run : Run next start (before ++ edge :: rest) final)
    (timely : Timely tick input (before ++ edge :: rest)) (observed : outcome edge = some made) :
    ∃ earlier pressed during pressedAt, before = earlier ++ pressed :: during ∧
      input pressed = some (.press pressedAt) ∧ ∀ other ∈ during, Holding input other := by
  have abstract := drives.outcome_eq run timely
  rw [observed, shown] at abstract
  obtain ⟨given, _, answered⟩ := Option.bind_eq_some_iff.mp abstract.symm
  cases held : armed span input before with
  | none =>
      rw [held] at answered
      cases given <;> cases answered
  | some pressedAt =>
      obtain ⟨earlier, pressed, during, shape, press, holding⟩ := armed_split held
      exact ⟨earlier, pressed, during, pressedAt, shape, press, holding⟩

end Driven

end Ser2Ble.Library.HoldTimer
