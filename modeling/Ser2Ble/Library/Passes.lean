import Mathlib.Data.List.Induction

/-!
# Runs in passes

A pass begins with a header, acts, and finishes before the next one begins.
The log of a run is the list of its finished passes and the pass that is open.
A condition on every act of every pass is a condition on the edges that act,
each under the log of what came before it.
-/

namespace Ser2Ble.Library

structure Pass (Header Act : Type) where
  header : Header
  acts : List Act

/-- What an edge is to the passes of a run. -/
inductive PassEvent (Header Act : Type) where
  | start (header : Header)
  | act (act : Act)
  | finish
  | other

structure PassLog (Header Act : Type) where
  finished : List (Pass Header Act)
  current : Option (Pass Header Act)

/-- Something holds of every edge, given the edges before it. -/
def Throughout {Edge : Type} (Holds : List Edge → Edge → Prop) (edges : List Edge) : Prop :=
  ∀ before edge rest, edges = before ++ edge :: rest → Holds before edge

theorem throughout_last {Edge : Type} {Holds : List Edge → Edge → Prop} {edges : List Edge}
    {edge : Edge} : Throughout Holds (edges ++ [edge]) ↔ Throughout Holds edges ∧ Holds edges edge := by
  constructor
  · intro holds
    refine ⟨fun before other rest shape => holds before other (rest ++ [edge]) ?_,
      holds edges edge [] rfl⟩
    rw [shape, List.append_assoc, List.cons_append]
  · rintro ⟨earlier, last⟩ before other rest shape
    induction rest using List.reverseRecOn with
    | nil =>
        obtain ⟨rfl, same⟩ := List.append_inj' shape rfl
        cases List.singleton_inj.mp same
        exact last
    | append_singleton rest final =>
        rw [← List.cons_append, ← List.append_assoc] at shape
        obtain ⟨same, _⟩ := List.append_inj' shape rfl
        exact earlier before other rest same

section PassLog

variable {Edge Header Act : Type}

def PassEvent.acted : PassEvent Header Act → Option Act
  | .act made => some made
  | _ => none

def Pass.extend (act : Act) (pass : Pass Header Act) : Pass Header Act :=
  { pass with acts := pass.acts ++ [act] }

namespace PassLog

def next (log : PassLog Header Act) : PassEvent Header Act → PassLog Header Act
  | .start header => { log with current := some ⟨header, []⟩ }
  | .act act => { log with current := log.current.map (Pass.extend act) }
  | .finish => ⟨log.finished ++ log.current.toList, none⟩
  | .other => log

/-- The finished passes and the open one. -/
def passes (log : PassLog Header Act) : List (Pass Header Act) :=
  log.finished ++ log.current.toList

def acts (log : PassLog Header Act) : List Act :=
  log.passes.flatMap Pass.acts

/-- No pass begins inside another one, and no act comes outside of a pass. -/
def InOrder (log : PassLog Header Act) : PassEvent Header Act → Prop
  | .start _ => log.current = none
  | .act _ => log.current ≠ none
  | _ => True

/-- Nothing that was done is forgotten. -/
theorem acts_next {log : PassLog Header Act} {event : PassEvent Header Act}
    (inOrder : log.InOrder event) : (log.next event).acts = log.acts ++ event.acted.toList := by
  cases event with
  | start header =>
      change log.current = none at inOrder
      simp [acts, passes, next, inOrder, PassEvent.acted]
  | act act =>
      obtain ⟨pass, shape⟩ := Option.ne_none_iff_exists'.mp inOrder
      simp [acts, passes, next, shape, Pass.extend, PassEvent.acted]
  | finish => simp [acts, passes, next, PassEvent.acted]
  | other => simp [next, PassEvent.acted]

/-- Every act of every pass fits its header. -/
def Fit (Fits : Header → Act → Prop) (log : PassLog Header Act) : Prop :=
  ∀ pass ∈ log.passes, ∀ act ∈ pass.acts, Fits pass.header act

/-- An act keeps the log fit exactly when it fits the open pass. -/
theorem fit_next_iff {Fits : Header → Act → Prop} {log : PassLog Header Act}
    {event : PassEvent Header Act} (inOrder : log.InOrder event) :
    (log.next event).Fit Fits ↔ log.Fit Fits ∧ ∀ act pass, event.acted = some act →
      log.current = some pass → Fits pass.header act := by
  cases event with
  | start header =>
      change log.current = none at inOrder
      simp [Fit, passes, next, inOrder, PassEvent.acted, or_imp, forall_and]
  | act act =>
      obtain ⟨pass, shape⟩ := Option.ne_none_iff_exists'.mp inOrder
      simp [Fit, passes, next, shape, Pass.extend, PassEvent.acted, or_imp, forall_and, and_assoc]
  | finish => simp [Fit, passes, next, PassEvent.acted]
  | other => simp [next, PassEvent.acted]

end PassLog

/-- The log of some edges, under a view of what each edge is. -/
def passLog (view : Edge → PassEvent Header Act) (edges : List Edge) : PassLog Header Act :=
  edges.foldl (fun log edge => log.next (view edge)) ⟨[], none⟩

variable {view : Edge → PassEvent Header Act}

theorem passLog_last (edges : List Edge) (edge : Edge) :
    passLog view (edges ++ [edge]) = (passLog view edges).next (view edge) := by
  rw [passLog, List.foldl_append]
  rfl

/-- Every edge comes in order. -/
def Orderly (view : Edge → PassEvent Header Act) : List Edge → Prop :=
  Throughout fun before edge => (passLog view before).InOrder (view edge)

/-- The acts of the passes are the acts of the edges. -/
theorem passLog_acts {edges : List Edge} (orderly : Orderly view edges) :
    (passLog view edges).acts = edges.filterMap fun edge => (view edge).acted := by
  induction edges using List.reverseRecOn with
  | nil => rfl
  | append_singleton edges edge ih =>
      obtain ⟨earlier, inOrder⟩ := throughout_last.mp orderly
      rw [passLog_last, PassLog.acts_next inOrder, ih earlier, List.filterMap_append]
      cases acted : (view edge).acted <;> simp [acted]

/-- Every act of every pass fits exactly when each acting edge fits the pass that is then open. -/
theorem passLog_fit_iff {Fits : Header → Act → Prop} {edges : List Edge}
    (orderly : Orderly view edges) : (passLog view edges).Fit Fits ↔
      Throughout (fun before edge => ∀ act pass, (view edge).acted = some act →
        (passLog view before).current = some pass → Fits pass.header act) edges := by
  induction edges using List.reverseRecOn with
  | nil =>
      refine iff_of_true (fun _ member => nomatch member) fun before edge rest shape => ?_
      exact absurd shape (by simp)
  | append_singleton edges edge ih =>
      obtain ⟨earlier, inOrder⟩ := throughout_last.mp orderly
      rw [passLog_last, PassLog.fit_next_iff inOrder, ih earlier, throughout_last]

end PassLog

section Shown

variable {Element Value : Type} {elements : List Element} {shown : Element → Option Value}
  {wanted : Element → Bool} {value : Element → Value}

theorem length_shown_le
    (only : ∀ element ∈ elements, shown element ≠ none → wanted element = true) :
    (elements.filterMap shown).length ≤ (elements.filter wanted).length := by
  rw [List.length_filterMap_eq_countP, ← List.countP_eq_length_filter]
  refine List.countP_mono_left fun element member some => ?_
  exact only element member (Option.isSome_iff_ne_none.mp some)

/--
What some elements show is what the wanted ones should show exactly when each
wanted one shows it.
-/
theorem shown_eq_wanted_iff
    (only : ∀ element ∈ elements, shown element ≠ none → wanted element = true) :
    elements.filterMap shown = (elements.filter wanted).map value ↔
      ∀ element ∈ elements, wanted element = true → shown element = some (value element) := by
  induction elements with
  | nil => exact iff_of_true rfl fun _ member => nomatch member
  | cons element rest ih =>
      have later : ∀ other ∈ rest, shown other ≠ none → wanted other = true :=
        fun other member => only other (List.mem_cons_of_mem _ member)
      rw [List.forall_mem_cons]
      by_cases own : wanted element = true
      · rw [List.filter_cons_of_pos own, List.map_cons]
        cases first : shown element with
        | none =>
            refine iff_of_false (fun same => ?_) fun both => nomatch both.1 own
            have bound := length_shown_le later
            rw [List.filterMap_cons_none first] at same
            rw [same, List.length_cons, List.length_map] at bound
            exact absurd bound (Nat.not_succ_le_self _)
        | some made =>
            rw [List.filterMap_cons_some first, List.cons.injEq, ih later, Option.some.injEq]
            exact and_congr_left fun _ => ⟨fun same _ => same, fun same => same own⟩
      · have none : shown element = none := by
          by_contra some
          exact own (only element List.mem_cons_self some)
        rw [List.filter_cons_of_neg own, List.filterMap_cons_none none, ih later]
        exact ⟨fun same => ⟨fun impossible => absurd impossible own, same⟩, And.right⟩

end Shown

end Ser2Ble.Library
