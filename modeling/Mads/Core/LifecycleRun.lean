import Mads.Core.Lifecycle
import Mads.Library.Trace

/-!
# What a run of start and shutdown calls leaves behind

The order of the hooks comes from a sort.  A run keeps the whole history in one of four shapes,
one for each way a manager can be left.
-/

namespace Mads

namespace Lifecycle

/-- Infrastructure is `0`, applications are `1`. -/
def groupRank (hook : RegisteredHook) : ℕ :=
  match hook.group with
  | .infrastructure _ => 0
  | .application => 1

def groupOwner (hook : RegisteredHook) : String :=
  match hook.group with
  | .infrastructure owner => owner
  | .application => ""

theorem hookOrder_eq : hookOrder =
    compareLex (compareOn groupRank) (compareLex (compareOn groupOwner) (compareOn (·.sequence))) := by
  have hlt : compare 0 1 = Ordering.lt := rfl
  have hgt : compare 1 0 = Ordering.gt := rfl
  funext left right
  cases hleft : left.group <;> cases hright : right.group <;>
    simp [hookOrder, compareLex, compareOn, groupRank, groupOwner, hleft, hright, hlt, hgt]

instance : Std.TransCmp hookOrder := by
  rw [hookOrder_eq]
  infer_instance

/-- Infrastructure starts before applications, by owner; otherwise the registration decides. -/
def StartsBefore (left right : RegisteredHook) : Prop :=
  match left.group, right.group with
  | .infrastructure leftOwner, .infrastructure rightOwner =>
    leftOwner < rightOwner ∨ leftOwner = rightOwner ∧ left.sequence < right.sequence
  | .infrastructure _, .application => True
  | .application, .infrastructure _ => False
  | .application, .application => left.sequence < right.sequence

theorem startsBefore_of_isLE {left right : RegisteredHook} (h : (hookOrder left right).isLE)
    (hne : left.sequence ≠ right.sequence) : StartsBefore left right := by
  unfold StartsBefore
  cases hleft : left.group with
  | application =>
    cases hright : right.group with
    | infrastructure owner => simp [hookOrder, hleft, hright] at h
    | application =>
      have hle : left.sequence ≤ right.sequence := by
        simpa [hookOrder, hleft, hright, Nat.isLE_compare] using h
      show left.sequence < right.sequence
      omega
  | infrastructure leftOwner =>
    cases hright : right.group with
    | application => trivial
    | infrastructure rightOwner =>
      simp only [hookOrder, hleft, hright, Ordering.isLE_then_iff_or, compare_lt_iff_lt,
        compare_eq_iff_eq, Nat.isLE_compare] at h
      show leftOwner < rightOwner ∨ leftOwner = rightOwner ∧ left.sequence < right.sequence
      apply h.imp_right
      rintro ⟨howner, hle⟩
      exact ⟨howner, by omega⟩

end Lifecycle

namespace LifecycleManager

open Lifecycle

/-- The order in which a manager starts its hooks. -/
def startOrder (manager : LifecycleManager) : List RegisteredHook := sortBy hookOrder manager.hooks

theorem startOrder_perm (manager : LifecycleManager) : manager.startOrder.Perm manager.hooks :=
  sortBy_perm _ _

/-- What a registration leaves: the sequences count the hooks. -/
theorem registered_hooks (registrations : List (HookGroup × LifecycleHook)) :
    (registered registrations).state = .created ∧
      (registered registrations).nextSequence = registrations.length ∧
      (registered registrations).hooks.map (fun hook => (hook.group, hook.hook)) = registrations ∧
      (registered registrations).hooks.map (·.sequence) = List.range registrations.length := by
  induction registrations using List.reverseRecOn with
  | nil => exact ⟨rfl, rfl, rfl, rfl⟩
  | append_singleton registrations registration ih =>
    obtain ⟨hstate, hnext, hhooks, hsequences⟩ := ih
    have hstep : registered (registrations ++ [registration]) =
        (registered registrations).register registration.1 registration.2 := by
      simp [registered, List.foldl_append]
    rw [hstep]
    refine ⟨hstate, ?_, ?_, ?_⟩
    · simp [register, hnext]
    · simp [register, hhooks]
    · simp [register, hsequences, hnext, List.range_succ]

theorem registered_sequence_nodup (registrations : List (HookGroup × LifecycleHook)) :
    ((registered registrations).startOrder.map (·.sequence)).Nodup := by
  have hperm := (startOrder_perm (registered registrations)).map (·.sequence)
  rw [hperm.nodup_iff, (registered_hooks registrations).2.2.2]
  exact List.nodup_range

theorem registered_startOrder_nodup (registrations : List (HookGroup × LifecycleHook)) :
    (registered registrations).startOrder.Nodup :=
  (registered_sequence_nodup registrations).of_map

theorem registered_startOrder_pairwise (registrations : List (HookGroup × LifecycleHook)) :
    (registered registrations).startOrder.Pairwise StartsBefore := by
  have hdistinct := List.pairwise_map.mp (registered_sequence_nodup registrations)
  have hsorted := List.pairwise_insertionSort
    (fun left right => (hookOrder left right).isLE = true) (registered registrations).hooks
  exact (hsorted.and hdistinct).imp fun h => startsBefore_of_isLE h.1 h.2

/-! ## Reading a history -/

/-- The hooks whose start was called. -/
def started (history : List HookCall) : List RegisteredHook :=
  (history.filter (·.action = .start)).map (·.hook)

/-- The hooks that started with success. -/
def succeeded (history : List HookCall) : List RegisteredHook :=
  (history.filter (fun call => call.action = .start ∧ call.failure = none)).map (·.hook)

/-- The hooks whose stop was called. -/
def stopped (history : List HookCall) : List RegisteredHook :=
  (history.filter (·.action = .stop)).map (·.hook)

/-- The error of a call that returns nothing else. -/
def failure {ε : Type} : Except ε Unit → Option ε
  | .ok () => none
  | .error error => some error

section Reading

variable {hooks : List RegisteredHook} {calls : List HookCall}

@[simp] theorem started_append (front back : List HookCall) :
    started (front ++ back) = started front ++ started back := by
  simp [started]

@[simp] theorem succeeded_append (front back : List HookCall) :
    succeeded (front ++ back) = succeeded front ++ succeeded back := by
  simp [succeeded]

@[simp] theorem stopped_append (front back : List HookCall) :
    stopped (front ++ back) = stopped front ++ stopped back := by
  simp [stopped]

theorem Starts.started (h : Starts hooks calls) : started calls = hooks := by
  rw [LifecycleManager.started, List.filter_eq_self.mpr fun call hcall => by simp [h.2 call hcall]]
  exact h.1

theorem Starts.succeeded (h : Starts hooks calls) : succeeded calls = hooks := by
  rw [LifecycleManager.succeeded, List.filter_eq_self.mpr fun call hcall => by simp [h.2 call hcall]]
  exact h.1

theorem Starts.stopped (h : Starts hooks calls) : stopped calls = [] := by
  rw [LifecycleManager.stopped, List.filter_eq_nil_iff.mpr fun call hcall => by simp [h.2 call hcall]]
  rfl

theorem Stops.started (h : Stops hooks calls) : started calls = [] := by
  rw [LifecycleManager.started, List.filter_eq_nil_iff.mpr fun call hcall => by simp [h.2 call hcall]]
  rfl

theorem Stops.succeeded (h : Stops hooks calls) : succeeded calls = [] := by
  rw [LifecycleManager.succeeded,
    List.filter_eq_nil_iff.mpr fun call hcall => by simp [h.2 call hcall]]
  rfl

theorem Stops.stopped (h : Stops hooks calls) : stopped calls = hooks := by
  rw [LifecycleManager.stopped, List.filter_eq_self.mpr fun call hcall => by simp [h.2 call hcall]]
  exact h.1

theorem Starts.mem (h : Starts hooks calls) {hook : RegisteredHook} (hhook : hook ∈ hooks) :
    ⟨.start, hook, none⟩ ∈ calls := by
  rw [← h.1] at hhook
  obtain ⟨⟨action, hook, failure⟩, hcall, rfl⟩ := List.mem_map.mp hhook
  obtain ⟨rfl, rfl⟩ : action = .start ∧ failure = none := h.2 _ hcall
  exact hcall

end Reading

/-! ## Runs -/

/-- The four shapes of a history, where the hooks start in a given order. -/
inductive Ran (order : List RegisteredHook) : LifecycleManager → List HookCall → Prop
  | created {hooks : List RegisteredHook} (sequence : ℕ) (horder : sortBy hookOrder hooks = order) :
      Ran order ⟨.created, hooks, sequence⟩ []
  | running {starts : List HookCall} (sequence : ℕ) (hstarts : Starts order starts) :
      Ran order ⟨.running, order, sequence⟩ starts
  | failed {front rest : List RegisteredHook} {failed : RegisteredHook} {error : Error}
      {starts stops : List HookCall} (sequence : ℕ) (horder : order = front ++ failed :: rest)
      (hstarts : Starts front starts) (hstops : Stops front.reverse stops) :
      Ran order ⟨.stopped, order, sequence⟩ (starts ++ ⟨.start, failed, some error⟩ :: stops)
  | stopped {starts stops : List HookCall} (sequence : ℕ) (hstarts : Starts order starts)
      (hstops : Stops order.reverse stops) :
      Ran order ⟨.stopped, order, sequence⟩ (starts ++ stops)

section Runs

variable (outcomes : Outcomes) {order : List RegisteredHook} {manager : LifecycleManager}
  {history : List HookCall}

/-- The one state in which an operation is accepted. -/
def Operation.from : Operation → LifecycleState
  | .start => .created
  | .shutdown => .running

def Operation.name : Operation → String
  | .start => "start"
  | .shutdown => "shutdown"

/-- Elsewhere the call is refused, and no hook runs. -/
theorem operate_refused (history : List HookCall) (operation : Operation)
    (h : manager.state ≠ operation.from) :
    manager.operate outcomes operation history =
      (manager, history, .error (invalidTransition manager.state operation.name)) := by
  cases operation with
  | start => exact if_pos h
  | shutdown => exact if_pos h

/-- A first start calls the hooks in order, up to one that fails; those before it are stopped. -/
inductive Began (order : List RegisteredHook) :
    LifecycleManager × List HookCall × Except Error Unit → Prop
  | running (sequence : ℕ) (hall : AllStart outcomes [] order) :
      Began order (⟨.running, order, sequence⟩, startsOf order, .ok ())
  | failed {front rest : List RegisteredHook} {failed : RegisteredHook} {error report : Error}
      {stops : List HookCall} (sequence : ℕ) (horder : order = front ++ failed :: rest)
      (hall : AllStart outcomes [] front)
      (hfailed : outcomes (startsOf front) .start failed = some error)
      (hstops : Stops front.reverse stops) (hreport : Reports failed error report) :
      Began order (⟨.stopped, order, sequence⟩,
        startsOf front ++ ⟨.start, failed, some error⟩ :: stops, .error report)

theorem start_began (h : manager.state = .created) :
    Began outcomes manager.startOrder (manager.start outcomes []) := by
  rw [LifecycleManager.start, if_neg (not_not_intro h)]
  show Began outcomes (sortBy hookOrder manager.hooks) _
  obtain ⟨heq, hall⟩ |
    ⟨front, failed, rest, error, stops, report, hsplit, heq, hall, hfailed, hstops, hreport⟩ :=
      startHooks_cases outcomes (sortBy hookOrder manager.hooks) [] []
  · simp only [heq]
    exact .running manager.nextSequence hall
  · simp only [heq]
    exact .failed manager.nextSequence hsplit hall hfailed hstops hreport

theorem Began.ran {outcome : LifecycleManager × List HookCall × Except Error Unit}
    (h : Began outcomes order outcome) : Ran order outcome.1 outcome.2.1 := by
  cases h with
  | running sequence _ => exact .running sequence (starts_startsOf order)
  | failed sequence horder _ _ hstops _ => exact .failed sequence horder (starts_startsOf _) hstops

/-- In the state `created` nothing has been called. -/
theorem Ran.of_created (hran : Ran order manager history) (h : manager.state = .created) :
    history = [] ∧ manager.startOrder = order := by
  cases hran with
  | created sequence horder => exact ⟨rfl, horder⟩
  | running => cases h
  | failed => cases h
  | stopped => cases h

theorem Ran.start (hran : Ran order manager history) :
    Ran order (manager.start outcomes history).1 (manager.start outcomes history).2.1 := by
  by_cases hstate : manager.state = .created
  · obtain ⟨rfl, rfl⟩ := hran.of_created hstate
    exact (start_began outcomes hstate).ran
  · have hrefused := operate_refused outcomes history .start hstate
    rw [show manager.start outcomes history = _ from hrefused]
    exact hran

/-- A start that succeeds leaves a running application. -/
theorem start_ok {next : LifecycleManager} {after : List HookCall}
    (h : manager.start outcomes history = (next, after, .ok ())) : next.state = .running := by
  by_cases hstate : manager.state = .created
  · rw [LifecycleManager.start, if_neg (not_not_intro hstate)] at h
    rcases hhooks : startHooks outcomes (sortBy hookOrder manager.hooks) [] history with
      ⟨calls, error | _⟩
    · simp [hhooks] at h
    · simp only [hhooks, Prod.mk.injEq] at h
      rw [← h.1]
  · rw [LifecycleManager.start, if_pos hstate] at h
    simp at h

/-- A shutdown of a running application stops every hook, and returns the first failure. -/
theorem shutdown_running (sequence : ℕ) {starts : List HookCall} (hstarts : Starts order starts) :
    ∃ stops result, LifecycleManager.shutdown outcomes ⟨.running, order, sequence⟩ starts =
        (⟨.stopped, order, sequence⟩, starts ++ stops, result) ∧
      Stops order.reverse stops ∧ failure result = (starts ++ stops).findSome? stopFailure := by
  obtain ⟨stops, heq, hstops⟩ := stopHooks_stops outcomes order.reverse none starts
  have hnone : starts.findSome? stopFailure = none :=
    List.findSome?_eq_none_iff.mpr fun call hcall => by simp [stopFailure, hstarts.2 call hcall]
  rw [LifecycleManager.shutdown, if_neg (not_not_intro rfl), heq, Option.none_or]
  refine ⟨stops, _, rfl, hstops, ?_⟩
  rw [List.findSome?_append, hnone, Option.none_or]
  cases stops.findSome? stopFailure with
  | none => rfl
  | some error => rfl

theorem shutdown_state (h : manager.state = .running) :
    (manager.shutdown outcomes history).1.state = .stopped := by
  rw [LifecycleManager.shutdown, if_neg (not_not_intro h)]

theorem Ran.shutdown (hran : Ran order manager history) :
    Ran order (manager.shutdown outcomes history).1 (manager.shutdown outcomes history).2.1 := by
  by_cases hstate : manager.state = .running
  · cases hran with
    | running sequence hstarts =>
      obtain ⟨stops, result, heq, hstops, -⟩ :=
        shutdown_running outcomes sequence hstarts
      rw [heq]
      exact .stopped sequence hstarts hstops
    | created => cases hstate
    | failed => cases hstate
    | stopped => cases hstate
  · have hrefused := operate_refused outcomes history .shutdown hstate
    rw [show manager.shutdown outcomes history = _ from hrefused]
    exact hran

theorem Ran.run (operations : List Operation) (hran : Ran order manager history) :
    Ran order (manager.run outcomes operations history).1
      (manager.run outcomes operations history).2 := by
  induction operations generalizing manager history with
  | nil => exact hran
  | cons operation rest ih =>
    cases operation with
    | start => exact ih (hran.start outcomes)
    | shutdown => exact ih (hran.shutdown outcomes)

end Runs

/-! ## What the hooks answer -/

section Answering

/-- Every call of a history was answered as the hooks answer. -/
def Answered (outcomes : Outcomes) (history : List HookCall) : Prop :=
  ∀ front call back, history = front ++ call :: back →
    call.failure = outcomes front call.action call.hook

variable {outcomes : Outcomes} {history : List HookCall}

theorem Answered.nil : Answered outcomes [] := by
  intro front call back h
  simp at h

theorem Answered.concat (h : Answered outcomes history) (action : HookAction)
    (hook : RegisteredHook) :
    Answered outcomes (history ++ [⟨action, hook, outcomes history action hook⟩]) := by
  intro front call back heq
  obtain ⟨rfl, rfl, rfl⟩ | ⟨mid, rfl, hhistory⟩ := Machine.concat_eq_split.mp heq
  · rfl
  · exact h front call mid hhistory

theorem Answered.front {last : HookCall} (h : Answered outcomes (history ++ [last])) :
    Answered outcomes history ∧ last.failure = outcomes history last.action last.hook := by
  refine ⟨fun front call back heq => ?_, h history last [] rfl⟩
  exact h front call (back ++ [last]) (by rw [heq, List.append_assoc, List.cons_append])

theorem Answered.rollback (h : Answered outcomes history) (hooks : List RegisteredHook)
    (diagnostic : Diagnostic) :
    Answered outcomes (rollback outcomes hooks diagnostic history).1 := by
  induction hooks generalizing history diagnostic with
  | nil => exact h
  | cons hook rest ih =>
    rw [LifecycleManager.rollback, call]
    have hnext := h.concat .stop hook
    cases hanswer : outcomes history .stop hook with
    | none =>
      rw [hanswer] at hnext
      exact ih hnext _
    | some error =>
      rw [hanswer] at hnext
      exact ih hnext _

theorem Answered.startHooks (h : Answered outcomes history) (hooks started : List RegisteredHook) :
    Answered outcomes (startHooks outcomes hooks started history).1 := by
  induction hooks generalizing history started with
  | nil => exact h
  | cons hook rest ih =>
    rw [LifecycleManager.startHooks, call]
    have hnext := h.concat .start hook
    cases hanswer : outcomes history .start hook with
    | none =>
      rw [hanswer] at hnext
      exact ih hnext _
    | some error =>
      rw [hanswer] at hnext
      exact hnext.rollback _ _

theorem Answered.stopHooks (h : Answered outcomes history) (hooks : List RegisteredHook)
    (failure : Option Error) : Answered outcomes (stopHooks outcomes hooks failure history).1 := by
  induction hooks generalizing history failure with
  | nil => exact h
  | cons hook rest ih => exact ih (h.concat .stop hook) _

variable (manager : LifecycleManager)

theorem Answered.start (h : Answered outcomes history) :
    Answered outcomes (manager.start outcomes history).2.1 := by
  have hstart := h.startHooks (sortBy Lifecycle.hookOrder manager.hooks) []
  unfold LifecycleManager.start
  by_cases hstate : manager.state ≠ .created
  · rw [if_pos hstate]
    exact h
  · rw [if_neg hstate]
    dsimp only
    rcases hcalls : LifecycleManager.startHooks outcomes
      (sortBy Lifecycle.hookOrder manager.hooks) [] history with ⟨after, error | _⟩ <;>
      rwa [hcalls] at hstart

theorem Answered.shutdown (h : Answered outcomes history) :
    Answered outcomes (manager.shutdown outcomes history).2.1 := by
  unfold LifecycleManager.shutdown
  split
  · exact h
  · exact h.stopHooks _ _

theorem Answered.run (h : Answered outcomes history)
    (operations : List LifecycleManager.Operation) :
    Answered outcomes (manager.run outcomes operations history).2 := by
  induction operations generalizing manager history with
  | nil => exact h
  | cons operation rest ih =>
    cases operation with
    | start => exact ih _ (h.start manager)
    | shutdown => exact ih _ (h.shutdown manager)

end Answering

/-! ## The laws of a history -/

/-- What holds of every history, where the hooks start in a given order. -/
structure Lawful (order : List RegisteredHook) (state : LifecycleState)
    (history : List HookCall) : Prop where
  started_prefix : started history <+: order
  started_once : (started history).Nodup
  stopped_once : (stopped history).Nodup
  /-- A hook is stopped only after its own start succeeded. -/
  stopped_after {front back : List HookCall} {call : HookCall} :
    history = front ++ call :: back → call.action = .stop → ⟨.start, call.hook, none⟩ ∈ front
  /-- Either no hook was stopped, or all that had started were, in reverse. -/
  stopped_reverse : stopped history = [] ∨ stopped history = (succeeded history).reverse
  /-- A stopped application has stopped all it had started, whatever the stops answered. -/
  stopped_all : state = .stopped → stopped history = (succeeded history).reverse
  running_all : state = .running → succeeded history = order ∧ stopped history = []
  /-- Where a hook failed to start, just the hooks before it were started and stopped. -/
  failed_start {hook : RegisteredHook} {error : Error} :
    ⟨.start, hook, some error⟩ ∈ history →
      state = .stopped ∧ ∃ front rest, order = front ++ hook :: rest ∧
        started history = front ++ [hook] ∧ succeeded history = front ∧
          stopped history = front.reverse

/-- Where the starts come first, each stop is behind them all. -/
theorem start_before_stop {starts stops front back : List HookCall} {call : HookCall}
    (hstarts : ∀ other ∈ starts, other.action = .start)
    (h : starts ++ stops = front ++ call :: back) (hcall : call.action = .stop) :
    starts <+: front ∧ call ∈ stops := by
  obtain ⟨middle, rfl, hstops⟩ | ⟨middle, rfl, hback⟩ := List.append_eq_append_iff.mp h
  · exact ⟨List.prefix_append _ _, by simp [hstops]⟩
  · cases middle with
    | nil =>
      obtain rfl : stops = call :: back := by simpa using hback.symm
      exact ⟨by simp, List.mem_cons_self⟩
    | cons first middle =>
      obtain ⟨rfl, -⟩ := List.cons.inj hback
      have := hstarts call (by simp)
      rw [hcall] at this
      cases this

theorem Starts.action {hooks : List RegisteredHook} {calls : List HookCall}
    (h : Starts hooks calls) : ∀ call ∈ calls, call.action = .start :=
  fun call hcall => (h.2 call hcall).1

section Laws

variable {order : List RegisteredHook} {starts stops : List HookCall}

theorem lawful_created : Lawful order .created [] where
  started_prefix := List.nil_prefix
  started_once := List.nodup_nil
  stopped_once := List.nodup_nil
  stopped_after h := by simp at h
  stopped_reverse := .inl rfl
  stopped_all := nofun
  running_all := nofun
  failed_start h := by simp at h

theorem lawful_running (hnodup : order.Nodup) (hstarts : Starts order starts) :
    Lawful order .running starts where
  started_prefix := hstarts.started ▸ List.prefix_refl _
  started_once := by rwa [hstarts.started]
  stopped_once := by simp [hstarts.stopped]
  stopped_after h hcall := by
    rw [← List.append_nil starts] at h
    cases (start_before_stop hstarts.action h hcall).2
  stopped_reverse := .inl hstarts.stopped
  stopped_all := nofun
  running_all _ := ⟨hstarts.succeeded, hstarts.stopped⟩
  failed_start h := by simpa using (hstarts.2 _ h).2

/-- The failed start is the last one, and only the hooks before it are stopped. -/
theorem lawful_failed {front rest : List RegisteredHook} {failed : RegisteredHook}
    {error : Error} (hnodup : order.Nodup) (horder : order = front ++ failed :: rest)
    (hstarts : Starts front starts) (hstops : Stops front.reverse stops) :
    Lawful order .stopped (starts ++ ⟨.start, failed, some error⟩ :: stops) := by
  have hsplit : starts ++ ⟨.start, failed, some error⟩ :: stops =
      (starts ++ [⟨.start, failed, some error⟩]) ++ stops := by simp
  have hattempts : ∀ call ∈ starts ++ [⟨.start, failed, some error⟩], call.action = .start := by
    simpa [or_imp, forall_and] using hstarts.action
  have hstarted : started (starts ++ ⟨.start, failed, some error⟩ :: stops) =
      front ++ [failed] := by
    rw [hsplit, started_append, started_append, hstarts.started, hstops.started]
    exact List.append_nil _
  have hsucceeded : succeeded (starts ++ ⟨.start, failed, some error⟩ :: stops) = front := by
    rw [hsplit, succeeded_append, succeeded_append, hstarts.succeeded, hstops.succeeded]
    simp [succeeded]
  have hstopped : LifecycleManager.stopped (starts ++ ⟨.start, failed, some error⟩ :: stops) =
      front.reverse := by
    rw [hsplit, stopped_append, stopped_append, hstarts.stopped, hstops.stopped]
    simp [LifecycleManager.stopped]
  have hprefix : front ++ [failed] <+: order := ⟨rest, by simp [horder]⟩
  have honce : (front ++ [failed]).Nodup := hnodup.sublist hprefix.sublist
  exact {
    started_prefix := hstarted ▸ hprefix
    started_once := hstarted ▸ honce
    stopped_once := hstopped ▸ List.nodup_reverse.mpr honce.of_append_left
    stopped_after := fun h hcall => by
      obtain ⟨hbefore, hmem⟩ := start_before_stop hattempts (hsplit.symm.trans h) hcall
      have hhook : _ ∈ front.reverse := hstops.1 ▸ List.mem_map_of_mem hmem
      exact hbefore.subset (List.mem_append_left _ (hstarts.mem (List.mem_reverse.mp hhook)))
    stopped_reverse := .inr (by rw [hstopped, hsucceeded])
    stopped_all := fun _ => by rw [hstopped, hsucceeded]
    running_all := nofun
    failed_start := fun {hook other} h => by
      -- it is the only call of a start that was answered with an error
      have hhook : hook = failed := by
        obtain h | h | h : _ ∈ starts ∨ _ ∨ _ ∈ stops := by simpa using h
        · simpa using (hstarts.2 _ h).2
        · exact h.1
        · simpa using hstops.2 _ h
      subst hhook
      exact ⟨rfl, front, rest, horder, hstarted, hsucceeded, hstopped⟩ }

theorem lawful_stopped (hnodup : order.Nodup) (hstarts : Starts order starts)
    (hstops : Stops order.reverse stops) : Lawful order .stopped (starts ++ stops) := by
  have hstarted : started (starts ++ stops) = order := by
    rw [started_append, hstarts.started, hstops.started, List.append_nil]
  have hsucceeded : succeeded (starts ++ stops) = order := by
    rw [succeeded_append, hstarts.succeeded, hstops.succeeded, List.append_nil]
  have hstopped : LifecycleManager.stopped (starts ++ stops) = order.reverse := by
    rw [stopped_append, hstarts.stopped, hstops.stopped, List.nil_append]
  exact {
    started_prefix := hstarted ▸ List.prefix_refl _
    started_once := hstarted ▸ hnodup
    stopped_once := hstopped ▸ List.nodup_reverse.mpr hnodup
    stopped_after := fun h hcall => by
      obtain ⟨hbefore, hmem⟩ := start_before_stop hstarts.action h hcall
      have hhook : _ ∈ order.reverse := hstops.1 ▸ List.mem_map_of_mem hmem
      exact hbefore.subset (hstarts.mem (List.mem_reverse.mp hhook))
    stopped_reverse := .inr (by rw [hstopped, hsucceeded])
    stopped_all := fun _ => by rw [hstopped, hsucceeded]
    running_all := nofun
    failed_start := fun h => by
      obtain h | h := List.mem_append.mp h
      · simpa using (hstarts.2 _ h).2
      · simpa using hstops.2 _ h }

theorem Ran.lawful {manager : LifecycleManager} {history : List HookCall} (hnodup : order.Nodup)
    (hran : Ran order manager history) : Lawful order manager.state history := by
  cases hran with
  | created => exact lawful_created
  | running _ hstarts => exact lawful_running hnodup hstarts
  | failed _ horder hstarts hstops => exact lawful_failed hnodup horder hstarts hstops
  | stopped _ hstarts hstops => exact lawful_stopped hnodup hstarts hstops

end Laws

/-- A run of calls on a manager with hooks registered leaves one of the four shapes. -/
theorem run_ran (outcomes : Outcomes) (registrations : List (HookGroup × LifecycleHook))
    (operations : List Operation) :
    Ran (registered registrations).startOrder
      ((registered registrations).run outcomes operations []).1
      ((registered registrations).run outcomes operations []).2 := by
  apply Ran.run
  have hstate := (registered_hooks registrations).1
  have hran := Ran.created (registered registrations).nextSequence
    (rfl : sortBy hookOrder (registered registrations).hooks = (registered registrations).startOrder)
  rwa [← hstate] at hran

end LifecycleManager

end Mads
