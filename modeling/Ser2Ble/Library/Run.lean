import Mathlib.Data.List.Induction

/-!
# Runs of a partial step function

A run keeps the edges it took, in order, so that what was received, delivered
or written along it is a function of the run and not a field of the state.
The rules below are the only inductions over runs that the development needs.
-/

namespace Ser2Ble.Library

/-- One taken transition: where it started, what happened, where it ended. -/
structure Edge (State Event : Type) where
  source : State
  event : Event
  target : State

/-- The finite runs of `step` from `start`, with their edges in the order taken. -/
inductive Run {State Event : Type} (step : State → Event → Option State) (start : State) :
    List (Edge State Event) → State → Prop where
  | refl : Run step start [] start
  | tail {edges : List (Edge State Event)} {middle target : State} {event : Event}
      (run : Run step start edges middle) (taken : step middle event = some target) :
      Run step start (edges ++ [⟨middle, event, target⟩]) target

namespace Run

variable {State Event : Type} {step : State → Event → Option State} {start : State}
  {edges : List (Edge State Event)} {final : State}

/-- An invariant kept by every good edge holds after every run of good edges. -/
theorem preserves {Good : Edge State Event → Prop} {Inv : State → Prop} (initial : Inv start)
    (keep : ∀ {source event target}, Inv source → step source event = some target →
      Good ⟨source, event, target⟩ → Inv target)
    (run : Run step start edges final) (good : ∀ edge ∈ edges, Good edge) : Inv final := by
  induction run with
  | refl => exact initial
  | tail run taken ih =>
      have before := ih fun edge member => good edge (List.mem_append_left _ member)
      exact keep before taken (good _ List.mem_concat_self)

/-- An invariant kept by every edge holds after every run. -/
theorem invariant {Inv : State → Prop} (initial : Inv start)
    (keep : ∀ {source event target}, Inv source → step source event = some target → Inv target)
    (run : Run step start edges final) : Inv final := by
  have allGood : ∀ edge ∈ edges, (fun _ : Edge State Event => True) edge := fun _ _ => trivial
  exact preserves initial (fun kept taken _ => keep kept taken) run allGood

theorem taken (run : Run step start edges final) {edge : Edge State Event}
    (member : edge ∈ edges) : step edge.source edge.event = some edge.target := by
  induction run with
  | refl => cases member
  | tail run taken ih =>
      rcases List.mem_append.mp member with earlier | last
      · exact ih earlier
      · rw [List.mem_singleton.mp last]
        exact taken

/--
A run splits at any of its edges: a run up to the edge, and a run from where
the edge ended.
-/
theorem split {before after : List (Edge State Event)} {edge : Edge State Event}
    (run : Run step start (before ++ edge :: after) final) :
    Run step start before edge.source ∧ step edge.source edge.event = some edge.target ∧
      Run step edge.target after final := by
  induction after using List.reverseRecOn generalizing final with
  | nil =>
      generalize shape : before ++ [edge] = all at run
      cases run with
      | refl => exact absurd shape (by simp)
      | tail run taken =>
          obtain ⟨rfl, last⟩ := List.append_inj' shape rfl
          cases List.singleton_inj.mp last
          exact ⟨run, taken, .refl⟩
  | append_singleton middle last ih =>
      generalize shape : before ++ edge :: (middle ++ [last]) = all at run
      cases run with
      | refl => exact absurd shape (by simp)
      | tail run taken =>
          rw [← List.cons_append, ← List.append_assoc] at shape
          obtain ⟨rfl, same⟩ := List.append_inj' shape rfl
          cases List.singleton_inj.mp same
          obtain ⟨first, crossed, rest⟩ := ih run
          exact ⟨first, crossed, rest.tail taken⟩

theorem append {middle : State} {more : List (Edge State Event)}
    (first : Run step start edges middle) (second : Run step middle more final) :
    Run step start (edges ++ more) final := by
  induction second with
  | refl => simpa only [List.append_nil] using first
  | tail run taken ih =>
      rw [← List.append_assoc]
      exact ih.tail taken

/-- A run splits between any two of its edges. -/
theorem split_append {before after : List (Edge State Event)}
    (run : Run step start (before ++ after) final) :
    ∃ middle, Run step start before middle ∧ Run step middle after final := by
  cases after with
  | nil =>
      rw [List.append_nil] at run
      exact ⟨final, run, .refl⟩
  | cons edge rest =>
      obtain ⟨first, crossed, last⟩ := run.split
      exact ⟨edge.source, first, (Run.refl.tail crossed).append last⟩

/--
Exactness of an edge condition.  When the invariant makes `Good` sufficient
for `Safe` and for the invariant to survive, and makes it necessary for
`Safe`, the runs all of whose edges are safe are exactly the runs all of whose
edges are good.
-/
theorem exact_condition {Good Safe : Edge State Event → Prop} {Inv : State → Prop}
    (initial : Inv start)
    (keep : ∀ {source event target}, Inv source → step source event = some target →
      Good ⟨source, event, target⟩ → Inv target)
    (sufficient : ∀ {source event target}, Inv source → step source event = some target →
      Good ⟨source, event, target⟩ → Safe ⟨source, event, target⟩)
    (necessary : ∀ {source event target}, Inv source → step source event = some target →
      Safe ⟨source, event, target⟩ → Good ⟨source, event, target⟩)
    (run : Run step start edges final) :
    (∀ edge ∈ edges, Safe edge) ↔ ∀ edge ∈ edges, Good edge := by
  induction run with
  | refl => simp only [List.not_mem_nil, false_implies, implies_true]
  | tail run taken ih =>
      simp only [List.mem_append, List.mem_singleton, or_imp, forall_and, forall_eq]
      constructor
      · rintro ⟨earlier, last⟩
        have good := ih.mp earlier
        exact ⟨good, necessary (run.preserves initial keep good) taken last⟩
      · rintro ⟨earlier, last⟩
        exact ⟨ih.mpr earlier, sufficient (run.preserves initial keep earlier) taken last⟩

/--
A rank that no good edge raises and every working edge lowers bounds the work
done along good edges.
-/
theorem descends {Good : Edge State Event → Prop} (works : Edge State Event → Bool)
    (rank : State → Nat) (run : Run step start edges final) (good : ∀ edge ∈ edges, Good edge)
    (one : ∀ {source event target}, step source event = some target →
      Good ⟨source, event, target⟩ →
      (works ⟨source, event, target⟩).toNat + rank target ≤ rank source) :
    edges.countP works + rank final ≤ rank start := by
  induction run with
  | refl => simp
  | @tail edges source target event run taken ih =>
      have before := ih fun edge member => good edge (List.mem_append_left _ member)
      have last := one taken (good _ List.mem_concat_self)
      rw [List.countP_append, List.countP_singleton]
      cases working : works ⟨source, event, target⟩ <;> simp [working] at last ⊢ <;> omega

/--
Double entry.  When every step pays what it earns and what it changes of the
debt, so does every run.
-/
theorem balance (paid earned : Edge State Event → Bool) (owed : State → Nat)
    (Inv : State → Prop) (run : Run step start edges final) (initial : Inv start)
    (keep : ∀ {source event target}, Inv source → step source event = some target → Inv target)
    (one : ∀ {source event target}, Inv source → step source event = some target →
      (paid ⟨source, event, target⟩).toNat + owed source =
        (earned ⟨source, event, target⟩).toNat + owed target) :
    edges.countP paid + owed start = edges.countP earned + owed final := by
  induction run with
  | refl => simp
  | @tail edges source target event run taken ih =>
      have last := one (run.invariant initial keep) taken
      rw [List.countP_append, List.countP_append, List.countP_singleton, List.countP_singleton]
      cases pays : paid ⟨source, event, target⟩ <;> cases earns : earned ⟨source, event, target⟩ <;>
        simp [pays, earns] at last ⊢ <;> omega

end Run

/-- What a run shows, one observation for some of its edges, grows at its end. -/
theorem filterMap_last {State Event Value : Type} (observe : Edge State Event → Option Value)
    (edges : List (Edge State Event)) (edge : Edge State Event) :
    (edges ++ [edge]).filterMap observe = edges.filterMap observe ++ (observe edge).toList := by
  rw [List.filterMap_append]
  cases shown : observe edge with
  | none => rw [List.filterMap_cons_none shown]; rfl
  | some value => rw [List.filterMap_cons_some shown]; rfl

/-- What the edges after the last one that resets the count add up to. -/
def since {State Event : Type} (resets : Edge State Event → Bool) (weight : Edge State Event → Nat)
    (edges : List (Edge State Event)) : Nat :=
  edges.foldl (fun total edge => if resets edge then 0 else total + weight edge) 0

theorem since_last {State Event : Type} (resets : Edge State Event → Bool)
    (weight : Edge State Event → Nat) (edges : List (Edge State Event)) (edge : Edge State Event) :
    since resets weight (edges ++ [edge]) =
      if resets edge then 0 else since resets weight edges + weight edge := by
  rw [since, List.foldl_append]
  rfl

/--
A simulation.  When every step of the large system is, seen through `abstract`,
the run of the small system that `edgeOf` shows, runs are seen as runs.
-/
theorem Run.simulated {State Event Small SmallEvent : Type}
    {step : State → Event → Option State} {smallStep : Small → SmallEvent → Option Small}
    {start final : State} {edges : List (Edge State Event)} (abstract : State → Small)
    (edgeOf : Edge State Event → Option (Edge Small SmallEvent))
    (one : ∀ {source event target}, step source event = some target →
      Run smallStep (abstract source) (edgeOf ⟨source, event, target⟩).toList (abstract target))
    (run : Run step start edges final) :
    Run smallStep (abstract start) (edges.filterMap edgeOf) (abstract final) := by
  induction run with
  | refl => exact .refl
  | tail run taken ih =>
      rw [filterMap_last]
      exact ih.append (one taken)

/-- What holds of some values and of one more holds of all of them. -/
theorem forall_mem_last {Value : Type} {Holds : Value → Prop} {values : List Value} {value : Value}
    (earlier : ∀ other ∈ values, Holds other) (last : Holds value) :
    ∀ other ∈ values ++ [value], Holds other :=
  List.forall_mem_append.mpr ⟨earlier, List.forall_mem_singleton.mpr last⟩

/-- A list around one of its elements. -/
theorem eq_take_cons_drop {Value : Type} {values : List Value} {value : Value} {index : Nat}
    (shown : values[index]? = some value) :
    values = values.take index ++ value :: values.drop (index + 1) := by
  obtain ⟨inside, rfl⟩ := List.getElem?_eq_some_iff.mp shown
  rw [← List.drop_eq_getElem_cons inside, List.take_append_drop]

/-- An edge among the labels of its run. -/
theorem event_at {State Event : Type} {edges : List (Edge State Event)} {events : List Event}
    (labels : edges.map Edge.event = events) {index : Nat} {edge : Edge State Event}
    (shown : edges[index]? = some edge) : events[index]? = some edge.event := by
  rw [← labels, List.getElem?_map, shown, Option.map_some]

/-- Execute a list of events, failing where an event is not enabled. -/
def follow {State Event : Type} (step : State → Event → Option State) :
    State → List Event → Option State
  | state, [] => some state
  | state, event :: rest =>
      match step state event with
      | none => none
      | some next => follow step next rest

/-- The edges that executing a list of events takes, up to the first event not enabled. -/
def trace {State Event : Type} (step : State → Event → Option State) :
    State → List Event → List (Edge State Event)
  | _, [] => []
  | state, event :: rest =>
      match step state event with
      | none => []
      | some next => ⟨state, event, next⟩ :: trace step next rest

/-- Executing a list of events is a run along its trace. -/
theorem trace_run {State Event : Type} {step : State → Event → Option State}
    {start final : State} {events : List Event} (executed : follow step start events = some final) :
    (trace step start events).map Edge.event = events ∧
      Run step start (trace step start events) final := by
  induction events generalizing start with
  | nil =>
      cases executed
      exact ⟨rfl, .refl⟩
  | cons event rest ih =>
      unfold follow at executed
      unfold trace
      cases taken : step start event with
      | none =>
          rw [taken] at executed
          cases executed
      | some next =>
          rw [taken] at executed
          obtain ⟨labels, run⟩ := ih executed
          exact ⟨by rw [List.map_cons, labels], (Run.refl.tail taken).append run⟩

/-- A list of events that can be executed is a run over those events. -/
theorem enabled_run {State Event : Type} {step : State → Event → Option State} {start : State}
    {events : List Event} (enabled : (follow step start events).isSome = true) :
    ∃ final, (trace step start events).map Edge.event = events ∧
      Run step start (trace step start events) final := by
  obtain ⟨final, executed⟩ := Option.isSome_iff_exists.mp enabled
  exact ⟨final, trace_run executed⟩

/-- What is computed from the two ends of a last step is observed on the last edge of a run. -/
theorem observed_run {State Event Value : Type} {step : State → Event → Option State}
    {start : State} {events : List Event} {event : Event} {observe : State → State → Value}
    {value : Value}
    (computed : ((follow step start events).bind fun source =>
      (step source event).map (observe source)) = some value) :
    ∃ (edges : List (Edge State Event)) (source target : State),
      edges.map Edge.event = events ++ [event] ∧ Run step start edges target ∧
      ⟨source, event, target⟩ ∈ edges ∧ observe source target = value := by
  obtain ⟨source, executed, crossed⟩ := Option.bind_eq_some_iff.mp computed
  obtain ⟨target, taken, observed⟩ := Option.map_eq_some_iff.mp crossed
  obtain ⟨labels, run⟩ := trace_run executed
  refine ⟨_, source, target, ?_, run.tail taken, List.mem_concat_self, observed⟩
  rw [List.map_append, labels, List.map_singleton]

end Ser2Ble.Library
