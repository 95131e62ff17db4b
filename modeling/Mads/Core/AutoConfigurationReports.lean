import Mathlib.Data.List.Perm.Basic
import Mads.Core.AutoConfigurationRounds
import Mads.Library.Runs

/-!
# What a pass evaluates, selects and reports

Descriptors share an identifier or an output. The first are never evaluated, the second are
evaluated and then failed, and each group is reported once.
-/

namespace Mads.AutoConfiguration

variable {Config : Type}

/-! ### The groups of a pass -/

section Pass

variable (registered : List (AutoConfigurationDescriptor Config)) (config : Config)
  (inputs : AutoConfigurationInputs) (moduleGraph : Option ModuleGraph)
  (providers : List ProviderDescriptor) (satisfied : List SatisfiedProvider)

/-- The sorted descriptors, those of one identifier together. -/
def groupsOf : List (List (AutoConfigurationDescriptor Config)) :=
  (sortBy descriptorOrder registered).splitBy
    (fun left right => left.identifier = right.identifier)

theorem flatten_groupsOf : (groupsOf registered).flatten = sortBy descriptorOrder registered :=
  List.flatten_splitBy ..

instance : Std.TransCmp (descriptorOrder : AutoConfigurationDescriptor Config →
    AutoConfigurationDescriptor Config → Ordering) :=
  have := transCmp_on locationOrder (@AutoConfigurationDescriptor.location Config)
  inferInstanceAs (Std.TransCmp (compareLex _ _))

theorem groupsOf_runs : Runs (·.identifier) (groupsOf registered) := by
  apply Runs.splitBy
  refine (pairwise_sortBy descriptorOrder registered).imp fun {left right} hle => ?_
  unfold descriptorOrder compareLex at hle
  have hle : (compare left.identifier right.identifier).isLE :=
    Ordering.isLE_left_of_isLE_then (Ordering.isLE_left_of_isLE_then hle)
  exact compare_le_iff_le.mp (Ordering.ne_gt_iff_isLE.mpr hle)

/-- No other descriptor is registered under the identifier. -/
def hasUniqueIdentifier (descriptor : AutoConfigurationDescriptor Config) : Bool :=
  registered.countP (fun other => other.identifier = descriptor.identifier) = 1

/-- What the evaluator of a descriptor says. -/
def evaluationOf (descriptor : AutoConfigurationDescriptor Config) :
    AutoConfigurationEvaluation :=
  descriptor.evaluator (contextFor config inputs moduleGraph providers satisfied descriptor)

/-! ### Active descriptors -/

/-- The descriptors whose evaluators run, in order. -/
def uniqueOf : List (AutoConfigurationDescriptor Config) :=
  (sortBy descriptorOrder registered).filter (hasUniqueIdentifier registered)

/-- The descriptors that are alone under their identifier and evaluate to active. -/
def IsActive (descriptor : AutoConfigurationDescriptor Config) : Prop :=
  descriptor ∈ registered ∧ hasUniqueIdentifier registered descriptor = true ∧
    (evaluationOf config inputs moduleGraph providers satisfied descriptor).status = .active

def activeOf : List (AutoConfigurationDescriptor Config) :=
  (uniqueOf registered).filter
    (fun d => (evaluationOf config inputs moduleGraph providers satisfied d).status = .active)

/-- The decisions before the conflict loop. -/
def decisionsOf : List (Decision Config) :=
  (groupsOf registered).flatMap (decideGroup config inputs moduleGraph providers satisfied)

variable {registered config inputs moduleGraph providers satisfied}

theorem mem_uniqueOf {d : AutoConfigurationDescriptor Config} :
    d ∈ uniqueOf registered ↔ d ∈ registered ∧ hasUniqueIdentifier registered d = true := by
  rw [uniqueOf, List.mem_filter, mem_sortBy]

theorem mem_activeOf {d : AutoConfigurationDescriptor Config} :
    d ∈ activeOf registered config inputs moduleGraph providers satisfied ↔
      IsActive registered config inputs moduleGraph providers satisfied d := by
  rw [activeOf, List.mem_filter, mem_uniqueOf, decide_eq_true_eq, IsActive, and_assoc]

theorem uniqueOf_eq : uniqueOf registered =
    (groupsOf registered).flatMap (fun group => if group.length = 1 then group else []) := by
  have hruns := (groupsOf_runs registered).filter_eq
  rw [flatten_groupsOf] at hruns
  rw [uniqueOf, ← hruns]
  apply List.filter_congr
  intro d _
  rw [hasUniqueIdentifier, (sortBy_perm descriptorOrder registered).countP_eq]

/-- A descriptor alone under its identifier stands once. -/
theorem eq_of_identifier {d e : AutoConfigurationDescriptor Config}
    (hunique : hasUniqueIdentifier registered d = true) (hd : d ∈ registered) (he : e ∈ registered)
    (h : e.identifier = d.identifier) : e = d := by
  have hcount : registered.countP (fun other => other.identifier = d.identifier) = 1 :=
    of_decide_eq_true hunique
  rw [List.countP_eq_length_filter] at hcount
  obtain ⟨only, honly⟩ := List.length_eq_one_iff.mp hcount
  have hmem : ∀ x ∈ registered, x.identifier = d.identifier → x = only := by
    intro x hx heq
    have : x ∈ registered.filter (fun other => other.identifier = d.identifier) :=
      List.mem_filter.mpr ⟨hx, decide_eq_true heq⟩
    rwa [honly, List.mem_singleton] at this
  rw [hmem d hd rfl, hmem e he h]

/-- Descriptors alone under their identifiers have different ones. -/
theorem pairwise_identifier {xs : List (AutoConfigurationDescriptor Config)}
    (hperm : xs.Perm registered) :
    (xs.filter (hasUniqueIdentifier registered)).Pairwise
      (fun d e => d.identifier ≠ e.identifier) := by
  rw [List.pairwise_iff_forall_sublist]
  intro d e hsub heq
  have hcount : registered.countP (fun other => other.identifier = d.identifier) = 1 :=
    of_decide_eq_true (List.mem_filter.mp (hsub.subset List.mem_cons_self)).2
  have htwo : [d, e].countP (fun other => other.identifier = d.identifier) ≤
      xs.countP (fun other => other.identifier = d.identifier) :=
    (hsub.trans List.filter_sublist).countP_le
  rw [hperm.countP_eq, hcount] at htwo
  simp [heq] at htwo

theorem activeOf_identifiers :
    (activeOf registered config inputs moduleGraph providers satisfied).Pairwise
      (fun d e => d.identifier ≠ e.identifier) :=
  (pairwise_identifier (sortBy_perm descriptorOrder registered)).filter _

/-- A decision before the conflict loop is active when its descriptor is. -/
theorem active_decideGroup (group : List (AutoConfigurationDescriptor Config)) :
    ((decideGroup config inputs moduleGraph providers satisfied group).filter
        Decision.isActive).map (·.descriptor) =
      (if group.length = 1 then group else []).filter
        (fun d => (evaluationOf config inputs moduleGraph providers satisfied d).status = .active) := by
  match group with
  | [] => rfl
  | [d] =>
    by_cases hactive : (d.evaluator (contextFor config inputs moduleGraph providers satisfied
        d)).status = .active
    · simp [decideGroup, Decision.isActive, evaluationOf, hactive]
    · simp [decideGroup, Decision.isActive, evaluationOf, hactive]
  | first :: second :: rest =>
    have hnone : (decideGroup config inputs moduleGraph providers satisfied
        (first :: second :: rest)).filter Decision.isActive = [] := by
      apply List.filter_eq_nil_iff.mpr
      intro decision hdecision
      obtain ⟨i, hi, rfl⟩ := List.mem_mapIdx.mp hdecision
      simp [Decision.isActive, AutoConfigurationEvaluation.failed]
    rw [hnone]
    simp

theorem active_decisionsOf :
    ((decisionsOf registered config inputs moduleGraph providers satisfied).filter
        Decision.isActive).map (·.descriptor) =
      activeOf registered config inputs moduleGraph providers satisfied := by
  rw [decisionsOf, activeOf, uniqueOf_eq, List.filter_flatMap, List.map_flatMap,
    List.filter_flatMap]
  congr 1
  funext group
  exact active_decideGroup group

theorem activeApart_decisionsOf :
    ActiveApart (decisionsOf registered config inputs moduleGraph providers satisfied) := by
  have hpairs : (activeOf registered config inputs moduleGraph providers satisfied).Pairwise
      (fun d e => d.identifier ≠ e.identifier) := activeOf_identifiers
  rw [← active_decisionsOf, List.pairwise_map, List.pairwise_filter] at hpairs
  exact hpairs

theorem rivals_decisionsOf (t : TypeId) :
    (rivals (decisionsOf registered config inputs moduleGraph providers satisfied) t).map
        (·.descriptor) =
      (activeOf registered config inputs moduleGraph providers satisfied).filter
        (fun d => d.outputTypeId = t) := by
  rw [← active_decisionsOf, List.filter_map, List.filter_filter]
  congr 1
  apply List.filter_congr
  intro decision _
  exact Bool.and_comm ..

/-- A pass is a map over the decisions of its groups. -/
theorem decide_eq_map :
    decide registered providers satisfied config inputs moduleGraph =
      (decisionsOf registered config inputs moduleGraph providers satisfied).map
        (settle (decisionsOf registered config inputs moduleGraph providers satisfied)) :=
  rounds_eq_map activeApart_decisionsOf

/-! ### What a group contributes to the diagnostics -/

variable (registered config inputs moduleGraph providers satisfied) in
/-- Whether a descriptor is the first of several active ones for its output. -/
def leadsConflict (descriptor : AutoConfigurationDescriptor Config) : Bool :=
  match (activeOf registered config inputs moduleGraph providers satisfied).filter
      (fun d => d.outputTypeId = descriptor.outputTypeId) with
  | first :: _ :: _ => descriptor.identifier = first.identifier
  | _ => false

variable (config inputs moduleGraph providers satisfied) in
/-- The diagnostic of a failed evaluation. -/
def failureOf (descriptor : AutoConfigurationDescriptor Config) : List Diagnostic :=
  ((evaluationOf config inputs moduleGraph providers satisfied descriptor).failure.map
    (·.primary)).toList

/-- A leading descriptor is itself the first active one for its output. -/
theorem leads_first {d : AutoConfigurationDescriptor Config} (hd : d ∈ uniqueOf registered)
    (h : leadsConflict registered config inputs moduleGraph providers satisfied d = true) :
    ∃ second rest, (activeOf registered config inputs moduleGraph providers satisfied).filter
      (fun e => e.outputTypeId = d.outputTypeId) = d :: second :: rest := by
  unfold leadsConflict at h
  match hactive : (activeOf registered config inputs moduleGraph providers satisfied).filter
      (fun e => e.outputTypeId = d.outputTypeId) with
  | [] => simp [hactive] at h
  | [_] => simp [hactive] at h
  | first :: second :: rest =>
    rw [hactive] at h
    have hfirst : first ∈ activeOf registered config inputs moduleGraph providers satisfied := by
      have : first ∈ (activeOf registered config inputs moduleGraph providers satisfied).filter
          (fun e => e.outputTypeId = d.outputTypeId) := by simp [hactive]
      exact (List.mem_filter.mp this).1
    obtain ⟨hmem, hunique⟩ := mem_uniqueOf.mp hd
    have heq : first = d := eq_of_identifier hunique hmem (mem_activeOf.mp hfirst).1
      (of_decide_eq_true h).symm
    exact ⟨second, rest, by rw [hactive, heq]⟩

/-- What the group of a descriptor alone under its identifier adds to the diagnostics. -/
theorem diagnosticsOf_single {d : AutoConfigurationDescriptor Config}
    (hd : d ∈ uniqueOf registered) :
    diagnosticsOf ((decideGroup config inputs moduleGraph providers satisfied [d]).map
        (settle (decisionsOf registered config inputs moduleGraph providers satisfied))) =
      ([d].filter (leadsConflict registered config inputs moduleGraph providers satisfied)).map
        conflictingDefaultDiagnostic ++
      failureOf config inputs moduleGraph providers satisfied d := by
  have hrivals : (rivals (decisionsOf registered config inputs moduleGraph providers satisfied)
      d.outputTypeId).map (·.descriptor) =
        (activeOf registered config inputs moduleGraph providers satisfied).filter
          (fun e => e.outputTypeId = d.outputTypeId) := rivals_decisionsOf _
  by_cases hactive : (evaluationOf config inputs moduleGraph providers satisfied d).status = .active
  · have hnone : (evaluationOf config inputs moduleGraph providers satisfied d).failure = none := by
      rw [← Option.not_isSome_iff_eq_none,
        (evaluationOf config inputs moduleGraph providers satisfied d).failure_iff, hactive]
      decide
    have hfailure : failureOf config inputs moduleGraph providers satisfied d = [] := by
      rw [failureOf, hnone]
      rfl
    have hstatus : (d.evaluator (contextFor config inputs moduleGraph providers satisfied
      d)).status = .active := hactive
    have hquiet : (d.evaluator (contextFor config inputs moduleGraph providers satisfied
      d)).failure = none := hnone
    rw [hfailure, List.append_nil, decideGroup, List.map_singleton]
    match hr : rivals (decisionsOf registered config inputs moduleGraph providers satisfied)
        d.outputTypeId with
    | [] =>
      rw [hr] at hrivals
      simp [settle, hr, leadsConflict, ← hrivals, diagnosticsOf, hquiet]
    | [_] =>
      rw [hr] at hrivals
      simp [settle, hr, leadsConflict, ← hrivals, diagnosticsOf, hquiet]
    | first :: second :: rest =>
      rw [hr] at hrivals
      -- of several active defaults, only the first one carries the diagnostic
      by_cases hleads : d.identifier = first.descriptor.identifier
      · have hlead : leadsConflict registered config inputs moduleGraph providers satisfied d =
            true := by
          simp [leadsConflict, ← hrivals, hleads]
        obtain ⟨second', rest', heq⟩ := leads_first hd hlead
        have hfirst : first.descriptor = d := by
          rw [← hrivals] at heq
          exact (List.cons.inj heq).1
        rw [List.filter_cons_of_pos hlead]
        simp [settle, hr, Decision.isActive, hstatus, hfirst, diagnosticsOf,
          AutoConfigurationEvaluation.replaceFailure, AutoConfigurationEvaluation.failed,
          Error.fromDiagnostics]
      · have hlead : ¬ leadsConflict registered config inputs moduleGraph providers satisfied d =
            true := by
          simp [leadsConflict, ← hrivals, hleads]
        rw [List.filter_cons_of_neg hlead]
        simp [settle, hr, Decision.isActive, hstatus, hleads, diagnosticsOf]
  · have hlead : ¬ leadsConflict registered config inputs moduleGraph providers satisfied d =
        true := by
      intro h
      obtain ⟨second, rest, heq⟩ := leads_first hd h
      have hmem : d ∈ activeOf registered config inputs moduleGraph providers satisfied :=
        (List.mem_filter.mp (heq ▸ List.mem_cons_self)).1
      exact hactive (mem_activeOf.mp hmem).2.2
    have hinactive : ¬ ({ descriptor := d
                          evaluation := d.evaluator
                            (contextFor config inputs moduleGraph providers satisfied d)
                          hasDirectRequirement := hasDirectRequirement d providers
                          emitDiagnostic := true } : Decision Config).isActive = true :=
      fun h => hactive (of_decide_eq_true h)
    rw [List.filter_cons_of_neg hlead, decideGroup, List.map_singleton, settle_inactive hinactive]
    unfold failureOf evaluationOf
    cases hf : (d.evaluator (contextFor config inputs moduleGraph providers satisfied d)).failure
    · simp [diagnosticsOf, hf]
    · simp [diagnosticsOf, hf]

theorem diagnosticsOf_shared {group : List (AutoConfigurationDescriptor Config)}
    (h : group.length ≠ 1) :
    diagnosticsOf ((decideGroup config inputs moduleGraph providers satisfied group).map
        (settle (decisionsOf registered config inputs moduleGraph providers satisfied))) =
      (Runs.repeatedHead group).map duplicateIdentifierDiagnostic := by
  match group with
  | [] => rfl
  | [_] => exact absurd rfl h
  | first :: second :: rest =>
    have hinactive : ∀ decision ∈ decideGroup config inputs moduleGraph providers satisfied
        (first :: second :: rest), ¬ decision.isActive = true := by
      intro decision hdecision
      obtain ⟨i, hi, rfl⟩ := List.mem_mapIdx.mp hdecision
      simp [Decision.isActive, AutoConfigurationEvaluation.failed]
    rw [List.map_congr_left fun decision hd => settle_inactive (hinactive decision hd),
      List.map_id']
    -- only the decision at index 0 emits the diagnostic
    rw [decideGroup, List.mapIdx_cons, diagnosticsOf, List.filter_cons_of_pos (by simp),
      List.filter_eq_nil_iff.mpr]
    · rfl
    · intro decision hdecision
      obtain ⟨i, hi, rfl⟩ := List.mem_mapIdx.mp hdecision
      simp

theorem diagnosticsOf_flatMap {α : Type} (f : α → List (Decision Config)) (xs : List α) :
    diagnosticsOf (xs.flatMap f) = xs.flatMap (fun x => diagnosticsOf (f x)) := by
  simp only [diagnosticsOf, List.filter_flatMap, List.filterMap_flatMap, List.map_flatMap]

variable (registered) in
/-- The first descriptor of each identifier that several have. -/
def duplicatedOf : List (AutoConfigurationDescriptor Config) :=
  (groupsOf registered).flatMap Runs.repeatedHead

variable (registered config inputs moduleGraph providers satisfied) in
/-- The first active descriptor of each output that several have. -/
def conflictingOf : List (AutoConfigurationDescriptor Config) :=
  (uniqueOf registered).filter
    (leadsConflict registered config inputs moduleGraph providers satisfied)

/-- The diagnostics of a pass are those of its shared identifiers, of its shared outputs and of its
failed evaluations. -/
theorem diagnostics_perm :
    (analyzeParts registered providers satisfied config inputs moduleGraph).diagnostics.Perm
      ((duplicatedOf registered).map duplicateIdentifierDiagnostic ++
        ((conflictingOf registered config inputs moduleGraph providers satisfied).map
          conflictingDefaultDiagnostic ++
        (uniqueOf registered).flatMap
          (failureOf config inputs moduleGraph providers satisfied))) := by
  have hgroups : ∀ group ∈ groupsOf registered,
      diagnosticsOf ((decideGroup config inputs moduleGraph providers satisfied group).map
          (settle (decisionsOf registered config inputs moduleGraph providers satisfied))) =
        (Runs.repeatedHead group).map duplicateIdentifierDiagnostic ++
          (((if group.length = 1 then group else []).filter
              (leadsConflict registered config inputs moduleGraph providers satisfied)).map
            conflictingDefaultDiagnostic ++
          (if group.length = 1 then group else []).flatMap
            (failureOf config inputs moduleGraph providers satisfied)) := by
    intro group hgroup
    by_cases hlength : group.length = 1
    · obtain ⟨d, rfl⟩ := List.length_eq_one_iff.mp hlength
      have hd : d ∈ uniqueOf registered := by
        rw [uniqueOf_eq]
        exact List.mem_flatMap.mpr ⟨[d], hgroup, by simp⟩
      rw [diagnosticsOf_single hd, if_pos hlength, List.flatMap_singleton]
      rfl
    · rw [diagnosticsOf_shared hlength, if_neg hlength]
      simp
  have hdiagnostics : (analyzeParts registered providers satisfied config inputs
      moduleGraph).diagnostics = diagnosticsOf (decide registered providers satisfied config inputs
        moduleGraph) := rfl
  rw [hdiagnostics, decide_eq_map]
  nth_rewrite 2 [decisionsOf]
  rw [List.map_flatMap, diagnosticsOf_flatMap, List.flatMap_congr hgroups]
  refine (List.flatMap_append_perm _ _ _).symm.trans (.append (.of_eq ?_) ?_)
  · rw [duplicatedOf, List.map_flatMap]
  · refine (List.flatMap_append_perm _ _ _).symm.trans (.append (.of_eq ?_) (.of_eq ?_))
    · rw [conflictingOf, uniqueOf_eq, List.filter_flatMap, List.map_flatMap]
    · rw [uniqueOf_eq, List.flatMap_assoc]

/-! ### The result of a pass -/

variable (registered config inputs moduleGraph providers satisfied)

/-- Each shared identifier, each output of several active descriptors and each failed evaluation has
one diagnostic, and there are no others. -/
structure ReportsOnce (diagnostics : List Diagnostic)
    (duplicated conflicting failing : List (AutoConfigurationDescriptor Config)) : Prop where
  reports : ∃ failures : List Diagnostic,
    List.Forall₂ (fun d diagnostic => ∃ error,
      (evaluationOf config inputs moduleGraph providers satisfied d).failure = some error ∧
        diagnostic = error.primary) failing failures ∧
    diagnostics.Perm (duplicated.map duplicateIdentifierDiagnostic ++
      (conflicting.map conflictingDefaultDiagnostic ++ failures))
  duplicated_subset : duplicated ⊆ registered
  duplicated_nodup : (duplicated.map (·.identifier)).Nodup
  duplicated_iff : ∀ identifier, identifier ∈ duplicated.map (·.identifier) ↔
    1 < registered.countP (fun d => d.identifier = identifier)
  conflicting_active : ∀ d ∈ conflicting,
    IsActive registered config inputs moduleGraph providers satisfied d
  conflicting_nodup : (conflicting.map (·.outputTypeId)).Nodup
  conflicting_iff : ∀ t, t ∈ conflicting.map (·.outputTypeId) ↔ ∃ d e,
    IsActive registered config inputs moduleGraph providers satisfied d ∧
    IsActive registered config inputs moduleGraph providers satisfied e ∧ d ≠ e ∧
    d.outputTypeId = t ∧ e.outputTypeId = t
  failing_perm : failing.Perm (registered.filter (fun d => hasUniqueIdentifier registered d &&
    (evaluationOf config inputs moduleGraph providers satisfied d).status = .failed))

/-- A pass selects the active descriptors that are alone with their output, and a failed report has
the diagnostic of its identifier, of its output or of its evaluation. -/
structure Exact (analysis : Analysis Config)
    (duplicated conflicting failing : List (AutoConfigurationDescriptor Config)) : Prop where
  outputs_nodup : (analysis.selected.map (·.outputTypeId)).Nodup
  identifiers_nodup : (analysis.selected.map (·.identifier)).Nodup
  selected : ∀ d, d ∈ analysis.selected ↔
    IsActive registered config inputs moduleGraph providers satisfied d ∧
    ∀ e, IsActive registered config inputs moduleGraph providers satisfied e →
      e.outputTypeId = d.outputTypeId → e = d
  reported : ReportsOnce registered config inputs moduleGraph providers satisfied
    analysis.diagnostics duplicated conflicting failing
  explained : ∀ report ∈ analysis.reports, report.status = .failed → ∃ d ∈ registered,
    report.identifier = d.identifier ∧ report.outputTypeName = d.outputTypeName ∧
      ((∃ first ∈ duplicated, first.identifier = d.identifier) ∨
        (∃ first ∈ conflicting, first.outputTypeId = d.outputTypeId) ∨ d ∈ failing)

variable {registered config inputs moduleGraph providers satisfied}

theorem uniqueOf_identifiers :
    (uniqueOf registered).Pairwise (fun d e => d.identifier ≠ e.identifier) :=
  pairwise_identifier (sortBy_perm descriptorOrder registered)

theorem conflicting_leads {d : AutoConfigurationDescriptor Config}
    (hd : d ∈ conflictingOf registered config inputs moduleGraph providers satisfied) :
    ∃ second rest, (activeOf registered config inputs moduleGraph providers satisfied).filter
      (fun e => e.outputTypeId = d.outputTypeId) = d :: second :: rest := by
  obtain ⟨hmem, hleads⟩ := List.mem_filter.mp hd
  exact leads_first hmem hleads

theorem conflicting_nodup :
    ((conflictingOf registered config inputs moduleGraph providers satisfied).map
      (·.outputTypeId)).Nodup := by
  refine List.pairwise_map.mpr (List.Pairwise.imp_of_mem ?_ (uniqueOf_identifiers.filter _))
  intro d e hd he hne htype
  -- two leaders of one output are its first active descriptor
  obtain ⟨_, _, hd⟩ := conflicting_leads hd
  obtain ⟨_, _, he⟩ := conflicting_leads he
  rw [htype, he] at hd
  exact hne (congrArg _ (List.cons.inj hd).1).symm

theorem conflicting_of_filter {t : TypeId} {first second : AutoConfigurationDescriptor Config}
    {rest : List (AutoConfigurationDescriptor Config)}
    (h : (activeOf registered config inputs moduleGraph providers satisfied).filter
      (fun e => e.outputTypeId = t) = first :: second :: rest) :
    first ∈ conflictingOf registered config inputs moduleGraph providers satisfied ∧
      first.outputTypeId = t := by
  have hmem : first ∈ (activeOf registered config inputs moduleGraph providers satisfied).filter
      (fun e => e.outputTypeId = t) := by simp [h]
  obtain ⟨hactive, htype⟩ := List.mem_filter.mp hmem
  have htype : first.outputTypeId = t := of_decide_eq_true htype
  refine ⟨List.mem_filter.mpr ⟨(List.mem_filter.mp hactive).1, ?_⟩, htype⟩
  rw [leadsConflict, htype, h]
  exact decide_eq_true rfl

theorem conflicting_iff (t : TypeId) :
    t ∈ (conflictingOf registered config inputs moduleGraph providers satisfied).map
        (·.outputTypeId) ↔
      ∃ d e, IsActive registered config inputs moduleGraph providers satisfied d ∧
        IsActive registered config inputs moduleGraph providers satisfied e ∧ d ≠ e ∧
        d.outputTypeId = t ∧ e.outputTypeId = t := by
  constructor
  · intro ht
    obtain ⟨d, hd, rfl⟩ := List.mem_map.mp ht
    obtain ⟨e, rest, heq⟩ := conflicting_leads hd
    have hmem : ∀ x ∈ d :: e :: rest,
        IsActive registered config inputs moduleGraph providers satisfied x ∧
          x.outputTypeId = d.outputTypeId := by
      intro x hx
      rw [← heq] at hx
      obtain ⟨hactive, htype⟩ := List.mem_filter.mp hx
      exact ⟨mem_activeOf.mp hactive, of_decide_eq_true htype⟩
    have hpairs : (d :: e :: rest).Pairwise (fun d e => d.identifier ≠ e.identifier) := by
      rw [← heq]
      exact activeOf_identifiers.filter _
    have hne : d.identifier ≠ e.identifier := List.rel_of_pairwise_cons hpairs List.mem_cons_self
    exact ⟨d, e, (hmem d (by simp)).1, (hmem e (by simp)).1, fun h => hne (congrArg _ h), rfl,
      (hmem e (by simp)).2⟩
  · rintro ⟨d, e, hd, he, hne, hdt, het⟩
    have hd : d ∈ (activeOf registered config inputs moduleGraph providers satisfied).filter
        (fun x => x.outputTypeId = t) :=
      List.mem_filter.mpr ⟨mem_activeOf.mpr hd, decide_eq_true hdt⟩
    have he : e ∈ (activeOf registered config inputs moduleGraph providers satisfied).filter
        (fun x => x.outputTypeId = t) :=
      List.mem_filter.mpr ⟨mem_activeOf.mpr he, decide_eq_true het⟩
    match hf : (activeOf registered config inputs moduleGraph providers satisfied).filter
        (fun x => x.outputTypeId = t) with
    | [] => simp [hf] at hd
    | [_] =>
      rw [hf, List.mem_singleton] at hd he
      exact absurd (hd.trans he.symm) hne
    | first :: second :: rest =>
      obtain ⟨hfirst, htype⟩ := conflicting_of_filter hf
      exact List.mem_map.mpr ⟨first, hfirst, htype⟩

variable (registered config inputs moduleGraph providers satisfied) in
/-- The descriptors whose evaluations failed. -/
def failingOf : List (AutoConfigurationDescriptor Config) :=
  (uniqueOf registered).filter
    (fun d => (evaluationOf config inputs moduleGraph providers satisfied d).status = .failed)

/-- Exactly the failed evaluations come with a diagnostic. -/
theorem failures_of (xs : List (AutoConfigurationDescriptor Config)) :
    List.Forall₂ (fun d diagnostic => ∃ error,
      (evaluationOf config inputs moduleGraph providers satisfied d).failure = some error ∧
        diagnostic = error.primary)
      (xs.filter (fun d =>
        (evaluationOf config inputs moduleGraph providers satisfied d).status = .failed))
      (xs.flatMap (failureOf config inputs moduleGraph providers satisfied)) := by
  induction xs with
  | nil => exact .nil
  | cons d xs ih =>
    have hiff := (evaluationOf config inputs moduleGraph providers satisfied d).failure_iff
    by_cases hfailed : (evaluationOf config inputs moduleGraph providers satisfied d).status =
        .failed
    · obtain ⟨error, herror⟩ := Option.isSome_iff_exists.mp (hiff.mpr hfailed)
      rw [List.filter_cons_of_pos (by simpa using hfailed), List.flatMap_cons, failureOf, herror]
      exact .cons ⟨error, herror, rfl⟩ ih
    · have hnone : (evaluationOf config inputs moduleGraph providers satisfied d).failure = none :=
        Option.not_isSome_iff_eq_none.mp (fun h => hfailed (hiff.mp h))
      rw [List.filter_cons_of_neg (by simpa using hfailed), List.flatMap_cons, failureOf, hnone]
      exact ih

theorem reportsOnce : ReportsOnce registered config inputs moduleGraph providers satisfied
    (analyzeParts registered providers satisfied config inputs moduleGraph).diagnostics
    (duplicatedOf registered)
    (conflictingOf registered config inputs moduleGraph providers satisfied)
    (failingOf registered config inputs moduleGraph providers satisfied) where
  reports := ⟨_, failures_of _, diagnostics_perm⟩
  duplicated_subset := by
    intro d hd
    obtain ⟨group, hgroup, hd⟩ := List.mem_flatMap.mp hd
    have hflat : d ∈ (groupsOf registered).flatten :=
      List.mem_flatten.mpr ⟨group, hgroup, (Runs.mem_repeatedHead hd).1⟩
    rw [flatten_groupsOf] at hflat
    exact mem_sortBy.mp hflat
  duplicated_nodup := (groupsOf_runs registered).repeatedHeads_nodup
  duplicated_iff := by
    intro identifier
    rw [duplicatedOf, (groupsOf_runs registered).mem_repeatedHeads, flatten_groupsOf,
      (sortBy_perm descriptorOrder registered).countP_eq]
  conflicting_active := by
    intro d hd
    obtain ⟨_, _, heq⟩ := conflicting_leads hd
    have hmem : d ∈ activeOf registered config inputs moduleGraph providers satisfied :=
      (List.mem_filter.mp (heq ▸ List.mem_cons_self)).1
    exact mem_activeOf.mp hmem
  conflicting_nodup := conflicting_nodup
  conflicting_iff := conflicting_iff
  failing_perm := by
    rw [failingOf, uniqueOf, List.filter_filter]
    refine ((sortBy_perm descriptorOrder registered).filter _).trans (.of_eq ?_)
    apply List.filter_congr
    intro d _
    exact Bool.and_comm ..

theorem settle_descriptor {decisions : List (Decision Config)} {decision : Decision Config} :
    (settle decisions decision).descriptor = decision.descriptor := by
  unfold settle
  split
  · split <;> rfl
  · rfl

/-- The loop keeps an active decision exactly when it has no rival. -/
theorem settle_isActive {decisions : List (Decision Config)} {decision : Decision Config} :
    (settle decisions decision).isActive = true ↔ decision.isActive = true ∧
      (rivals decisions decision.descriptor.outputTypeId).length < 2 := by
  unfold settle
  match rivals decisions decision.descriptor.outputTypeId with
  | [] => simp
  | [_] => simp
  | first :: second :: rest =>
    have hmany : ¬ (first :: second :: rest).length < 2 := by
      simp only [List.length_cons]
      omega
    by_cases hactive : decision.isActive = true
    · refine ⟨fun h => ?_, fun h => absurd h.2 hmany⟩
      dsimp only at h
      rw [if_pos hactive] at h
      cases h
    · simp [hactive]

/-- A decision that fails did so before the loop, or has a rival. -/
theorem settle_failed {decisions : List (Decision Config)} {decision : Decision Config}
    (h : (settle decisions decision).evaluation.status = .failed) :
    decision.evaluation.status = .failed ∨ ∃ first second rest,
      rivals decisions decision.descriptor.outputTypeId = first :: second :: rest := by
  match hr : rivals decisions decision.descriptor.outputTypeId with
  | [] =>
    left
    rwa [settle, hr] at h
  | [_] =>
    left
    rwa [settle, hr] at h
  | first :: second :: rest => exact .inr ⟨first, second, rest, rfl⟩

/-- An active decision before the conflict loop belongs to an active descriptor. -/
theorem active_of_decision {decision : Decision Config}
    (h : decision ∈ decisionsOf registered config inputs moduleGraph providers satisfied)
    (hactive : decision.isActive = true) :
    IsActive registered config inputs moduleGraph providers satisfied decision.descriptor := by
  rw [← mem_activeOf, ← active_decisionsOf]
  exact List.mem_map_of_mem (List.mem_filter.mpr ⟨h, hactive⟩)

theorem decision_of_active {d : AutoConfigurationDescriptor Config}
    (h : IsActive registered config inputs moduleGraph providers satisfied d) :
    ∃ decision ∈ decisionsOf registered config inputs moduleGraph providers satisfied,
      decision.isActive = true ∧ decision.descriptor = d := by
  rw [← mem_activeOf, ← active_decisionsOf] at h
  obtain ⟨decision, hdecision, heq⟩ := List.mem_map.mp h
  obtain ⟨hmem, hactive⟩ := List.mem_filter.mp hdecision
  exact ⟨decision, hmem, hactive, heq⟩

/-- A descriptor has at most one rival exactly when no other active one has its output. -/
theorem rivals_short {d : AutoConfigurationDescriptor Config}
    (h : IsActive registered config inputs moduleGraph providers satisfied d) :
    (rivals (decisionsOf registered config inputs moduleGraph providers satisfied)
        d.outputTypeId).length < 2 ↔
      ∀ e, IsActive registered config inputs moduleGraph providers satisfied e →
        e.outputTypeId = d.outputTypeId → e = d := by
  have hlength : (rivals (decisionsOf registered config inputs moduleGraph providers satisfied)
      d.outputTypeId).length = ((activeOf registered config inputs moduleGraph providers
        satisfied).filter (fun e => e.outputTypeId = d.outputTypeId)).length := by
    rw [← rivals_decisionsOf, List.length_map]
  have hmem : ∀ e, e ∈ (activeOf registered config inputs moduleGraph providers satisfied).filter
      (fun e => e.outputTypeId = d.outputTypeId) ↔
        IsActive registered config inputs moduleGraph providers satisfied e ∧
          e.outputTypeId = d.outputTypeId := by
    intro e
    rw [List.mem_filter, mem_activeOf, decide_eq_true_eq]
  have hpairs : ((activeOf registered config inputs moduleGraph providers satisfied).filter
      (fun e => e.outputTypeId = d.outputTypeId)).Pairwise
        (fun d e => d.identifier ≠ e.identifier) := activeOf_identifiers.filter _
  have hself := (hmem d).mpr ⟨h, rfl⟩
  match hf : (activeOf registered config inputs moduleGraph providers satisfied).filter
      (fun e => e.outputTypeId = d.outputTypeId) with
  | [] => simp [hf] at hself
  | [only] =>
    rw [hf, List.mem_singleton] at hself
    refine ⟨fun _ e he htype => ?_, fun _ => by simp [hlength, hf]⟩
    have := (hmem e).mpr ⟨he, htype⟩
    rw [hf, List.mem_singleton] at this
    rw [this, hself]
  | first :: second :: rest =>
    rw [hf] at hpairs hmem
    refine ⟨fun hshort => ?_, fun halone => ?_⟩
    · rw [hlength, hf] at hshort
      simp only [List.length_cons] at hshort
      omega
    · have hfirst := (hmem first).mp (by simp)
      have hsecond := (hmem second).mp (by simp)
      have heq : first = second :=
        (halone first hfirst.1 hfirst.2).trans (halone second hsecond.1 hsecond.2).symm
      exact absurd (congrArg _ heq) (List.rel_of_pairwise_cons hpairs List.mem_cons_self)

/-- What a pass selects: the active descriptors alone with their output. -/
theorem mem_selected {d : AutoConfigurationDescriptor Config} :
    d ∈ (analyzeParts registered providers satisfied config inputs moduleGraph).selected ↔
      IsActive registered config inputs moduleGraph providers satisfied d ∧
      ∀ e, IsActive registered config inputs moduleGraph providers satisfied e →
        e.outputTypeId = d.outputTypeId → e = d := by
  have hselected : (analyzeParts registered providers satisfied config inputs
      moduleGraph).selected = selectedOf (decide registered providers satisfied config inputs
        moduleGraph) := rfl
  rw [hselected, decide_eq_map, selectedOf, List.mem_map]
  constructor
  · rintro ⟨decision, hdecision, rfl⟩
    obtain ⟨hmem, hactive⟩ := List.mem_filter.mp hdecision
    obtain ⟨before, hbefore, rfl⟩ := List.mem_map.mp hmem
    obtain ⟨hactive, hshort⟩ := settle_isActive.mp hactive
    have h := active_of_decision hbefore hactive
    rw [settle_descriptor]
    exact ⟨h, (rivals_short h).mp hshort⟩
  · rintro ⟨h, halone⟩
    obtain ⟨before, hbefore, hactive, rfl⟩ := decision_of_active h
    refine ⟨_, List.mem_filter.mpr ⟨List.mem_map_of_mem hbefore, ?_⟩, settle_descriptor⟩
    exact settle_isActive.mpr ⟨hactive, (rivals_short h).mpr halone⟩

theorem selected_identifiers :
    ((analyzeParts registered providers satisfied config inputs moduleGraph).selected.map
      (·.identifier)).Nodup := by
  have hsub : ∀ decisions all : List (Decision Config),
      (selectedOf (decisions.map (settle all))).Sublist
        ((decisions.filter Decision.isActive).map (·.descriptor)) := by
    intro decisions all
    induction decisions with
    | nil => exact .slnil
    | cons decision decisions ih =>
      by_cases hkept : (settle all decision).isActive = true
      · have hactive := (settle_isActive.mp hkept).1
        rw [List.map_cons, selectedOf, List.filter_cons_of_pos hkept,
          List.filter_cons_of_pos hactive, List.map_cons, List.map_cons, settle_descriptor]
        exact ih.cons_cons _
      · rw [List.map_cons, selectedOf, List.filter_cons_of_neg hkept]
        by_cases hactive : decision.isActive = true
        · rw [List.filter_cons_of_pos hactive]
          exact ih.cons _
        · rw [List.filter_cons_of_neg hactive]
          exact ih
  have hselected : (analyzeParts registered providers satisfied config inputs
      moduleGraph).selected = selectedOf (decide registered providers satisfied config inputs
        moduleGraph) := rfl
  rw [hselected, decide_eq_map]
  have hactive := hsub (decisionsOf registered config inputs moduleGraph providers satisfied)
    (decisionsOf registered config inputs moduleGraph providers satisfied)
  rw [active_decisionsOf] at hactive
  exact List.pairwise_map.mpr (activeOf_identifiers.sublist hactive)

/-- A failed report has its diagnostic among those of the pass. -/
theorem report_explained {report : AutoConfigurationReport}
    (h : report ∈ (analyzeParts registered providers satisfied config inputs
      moduleGraph).reports) (hfailed : report.status = .failed) :
    ∃ d ∈ registered, report.identifier = d.identifier ∧
      report.outputTypeName = d.outputTypeName ∧
      ((∃ first ∈ duplicatedOf registered, first.identifier = d.identifier) ∨
        (∃ first ∈ conflictingOf registered config inputs moduleGraph providers satisfied,
          first.outputTypeId = d.outputTypeId) ∨
        d ∈ failingOf registered config inputs moduleGraph providers satisfied) := by
  have hreports : (analyzeParts registered providers satisfied config inputs
      moduleGraph).reports = (decide registered providers satisfied config inputs
        moduleGraph).map Decision.report := rfl
  rw [hreports, decide_eq_map, List.map_map] at h
  obtain ⟨decision, hdecision, rfl⟩ := List.mem_map.mp h
  obtain ⟨group, hgroup, hdecision⟩ := List.mem_flatMap.mp hdecision
  have hregistered : ∀ d ∈ group, d ∈ registered := by
    intro d hd
    have hflat : d ∈ (groupsOf registered).flatten := List.mem_flatten.mpr ⟨group, hgroup, hd⟩
    rw [flatten_groupsOf] at hflat
    exact mem_sortBy.mp hflat
  by_cases hlength : group.length = 1
  · -- alone under its identifier, a default fails by itself or in a conflict
    obtain ⟨d, rfl⟩ := List.length_eq_one_iff.mp hlength
    have hd : d ∈ uniqueOf registered := by
      rw [uniqueOf_eq]
      exact List.mem_flatMap.mpr ⟨[d], hgroup, by simp⟩
    obtain rfl := List.mem_singleton.mp hdecision
    refine ⟨d, hregistered d List.mem_cons_self,
      congrArg AutoConfigurationDescriptor.identifier settle_descriptor,
      congrArg AutoConfigurationDescriptor.outputTypeName settle_descriptor, .inr ?_⟩
    rcases settle_failed hfailed with hown | ⟨first, second, rest, hrivals⟩
    · exact .inr (List.mem_filter.mpr ⟨hd, decide_eq_true hown⟩)
    · have hactive : (rivals (decisionsOf registered config inputs moduleGraph providers satisfied)
          d.outputTypeId).map (·.descriptor) =
            (activeOf registered config inputs moduleGraph providers satisfied).filter
              (fun e => e.outputTypeId = d.outputTypeId) := rivals_decisionsOf _
      rw [hrivals] at hactive
      exact .inl ⟨_, conflicting_of_filter hactive.symm⟩
  · match group with
    | [] => cases hdecision
    | [_] => exact absurd rfl hlength
    | first :: second :: rest =>
      -- declarations under one identifier all fail
      obtain ⟨i, hi, rfl⟩ := List.mem_mapIdx.mp hdecision
      have hmem : (first :: second :: rest)[i] ∈ first :: second :: rest := List.getElem_mem hi
      refine ⟨_, hregistered _ hmem,
        congrArg AutoConfigurationDescriptor.identifier settle_descriptor,
        congrArg AutoConfigurationDescriptor.outputTypeName settle_descriptor,
        .inl ⟨first, List.mem_flatMap.mpr ⟨_, hgroup, List.mem_singleton_self _⟩, ?_⟩⟩
      exact (groupsOf_runs registered).same _ hgroup first List.mem_cons_self _ hmem

/-! ### The evaluators a pass runs -/

variable (registered config inputs moduleGraph providers satisfied)

/-- A pass that notes the descriptors whose evaluators it runs. -/
abbrev Noting (Config : Type) := StateM (List (AutoConfigurationDescriptor Config))

def runEvaluator (descriptor : AutoConfigurationDescriptor Config) :
    Noting Config AutoConfigurationEvaluation := do
  modify (· ++ [descriptor])
  pure (descriptor.evaluator (contextFor config inputs moduleGraph providers satisfied descriptor))

/-- `decideGroup`, with the calls it makes. -/
def decideGroupNoting (group : List (AutoConfigurationDescriptor Config)) :
    Noting Config (List (Decision Config)) :=
  match group with
  | [] => pure []
  | [descriptor] => do
    let evaluation ← runEvaluator config inputs moduleGraph providers satisfied descriptor
    pure [{ descriptor
            evaluation
            hasDirectRequirement := hasDirectRequirement descriptor providers
            emitDiagnostic := true }]
  | first :: _ :: _ => pure (group.mapIdx fun index descriptor =>
    { descriptor
      evaluation := .failed ⟨"duplicate_identifier"⟩
        "an auto-configuration identifier is duplicated" [] []
        (Error.fromDiagnostics (duplicateIdentifierDiagnostic first) [])
      hasDirectRequirement := hasDirectRequirement descriptor providers
      emitDiagnostic := index = 0 })

/-- `decide`, with the calls it makes. -/
def decideNoting : Noting Config (List (Decision Config)) := do
  let groups := (sortBy descriptorOrder registered).splitBy
    (fun left right => left.identifier = right.identifier)
  let decided ← groups.mapM (decideGroupNoting config inputs moduleGraph providers satisfied)
  let decisions := decided.flatten
  pure ((List.range decisions.length).foldl resolveConflict decisions)

theorem decideGroupNoting_run (group noted : List (AutoConfigurationDescriptor Config)) :
    (decideGroupNoting config inputs moduleGraph providers satisfied group).run noted =
      pure (decideGroup config inputs moduleGraph providers satisfied group,
        noted ++ if group.length = 1 then group else []) := by
  match group with
  | [] => simp [decideGroupNoting, decideGroup]
  | [_] => rfl
  | _ :: _ :: _ => simp [decideGroupNoting, decideGroup]

theorem decideGroupsNoting_run (groups : List (List (AutoConfigurationDescriptor Config)))
    (noted : List (AutoConfigurationDescriptor Config)) :
    (groups.mapM (decideGroupNoting config inputs moduleGraph providers satisfied)).run noted =
      pure (groups.map (decideGroup config inputs moduleGraph providers satisfied),
        noted ++ groups.flatMap (fun group => if group.length = 1 then group else [])) := by
  induction groups generalizing noted with
  | nil => simp
  | cons group groups ih =>
    simp only [List.mapM_cons, StateT.run_bind, decideGroupNoting_run, pure_bind, ih,
      StateT.run_pure, List.map_cons, List.flatMap_cons, List.append_assoc]

/-- A pass runs the evaluators of the descriptors that are alone under their identifier. -/
theorem decideNoting_run : ∃ calls,
    (decideNoting registered config inputs moduleGraph providers satisfied).run [] =
      (decide registered providers satisfied config inputs moduleGraph, calls) ∧
    calls.Perm (registered.filter (hasUniqueIdentifier registered)) := by
  refine ⟨(groupsOf registered).flatMap (fun group => if group.length = 1 then group else []),
    ?_, ?_⟩
  · unfold decideNoting
    simp only [StateT.run_bind, decideGroupsNoting_run, pure_bind, StateT.run_pure,
      List.nil_append, ← List.flatMap_def]
    rfl
  · rw [← uniqueOf_eq]
    exact (sortBy_perm descriptorOrder registered).filter _

variable {registered config inputs moduleGraph providers satisfied}

/-- Whatever is registered and whatever the evaluators say, a pass runs the evaluators of the
descriptors alone under their identifier, each once, selects those that are active alone with their
output, and reports each shared identifier, each shared output and each failure once. Where the
descriptors differ in what they are sorted by, their order changes nothing. -/
theorem analyzeParts_exact (registered : List (AutoConfigurationDescriptor Config))
    (providers : List ProviderDescriptor) (satisfied : List SatisfiedProvider) (config : Config)
    (inputs : AutoConfigurationInputs) (moduleGraph : Option ModuleGraph) :
    (∃ calls, (decideNoting registered config inputs moduleGraph providers satisfied).run [] =
        (decide registered providers satisfied config inputs moduleGraph, calls) ∧
      calls.Perm (registered.filter (hasUniqueIdentifier registered))) ∧
    (∃ duplicated conflicting failing,
      Exact registered config inputs moduleGraph providers satisfied
        (analyzeParts registered providers satisfied config inputs moduleGraph)
        duplicated conflicting failing) ∧
    ((registered.map (fun d => (d.identifier, d.outputTypeName, d.location))).Nodup →
      ∀ permuted, registered.Perm permuted →
        analyzeParts permuted providers satisfied config inputs moduleGraph =
          analyzeParts registered providers satisfied config inputs moduleGraph) := by
  refine ⟨decideNoting_run .., ⟨duplicatedOf registered,
    conflictingOf registered config inputs moduleGraph providers satisfied,
    failingOf registered config inputs moduleGraph providers satisfied, ?_⟩,
    fun hkeys permuted hperm => ?_⟩
  · exact ⟨(analyzeParts_selects ..).outputs_nodup, selected_identifiers, fun d => mem_selected,
      reportsOnce, fun report => report_explained⟩
  · have hsort : sortBy descriptorOrder registered = sortBy descriptorOrder permuted := by
      apply sortBy_eq_of_perm descriptorOrder hperm
      intro d hd e he horder
      apply List.inj_on_of_nodup_map hkeys hd he
      simpa [descriptorOrder, compareLex_eq_eq, compareOn, locationOrder_eq_eq, and_assoc]
        using horder
    unfold analyzeParts decide
    rw [hsort]

/-- Two integrations under one identifier, two with one output and one on its own. -/
def sampleRegistered : List (AutoConfigurationDescriptor Unit) :=
  let integration (identifier : String) (output line : ℕ) : AutoConfigurationDescriptor Unit :=
    { identifier, outputTypeName := "Output", outputTypeId := ⟨output⟩,
      location := ⟨"integrations.rs", line, 1⟩,
      evaluator := fun _ => .active ⟨"conditions_matched"⟩ "matched" [] [], applier := line }
  [integration "cache" 1 1, integration "jwt" 2 2, integration "database" 3 3,
    integration "cache" 4 4, integration "pool" 3 5]

theorem analyzeParts_exact_sample :
    analyzeParts sampleRegistered.reverse [] [] () {} none =
      analyzeParts sampleRegistered [] [] () {} none :=
  (analyzeParts_exact sampleRegistered [] [] () {} none).2.2 (by decide) _
    (List.reverse_perm _).symm

end Pass

end Mads.AutoConfiguration
