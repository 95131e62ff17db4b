import Mathlib.Data.List.SplitBy
import Mads.Core.AutoConfiguration

/-!
# What an evaluation pass selects
-/

namespace Mads.AutoConfiguration

variable {Config : Type} {decisions : List (Decision Config)}

/-! ### Rounds of the conflict loop -/

theorem mem_conflicts {t : TypeId} {i : ℕ} : i ∈ conflicts decisions t ↔
    ∃ d, decisions[i]? = some d ∧ d.isActive ∧ d.descriptor.outputTypeId = t := by
  simp [conflicts, List.mem_zipIdx_iff_getElem?]

theorem conflicts_pairwise (decisions : List (Decision Config)) (t : TypeId) :
    (conflicts decisions t).Pairwise (· < ·) := by
  have hsublist : (conflicts decisions t).Sublist (decisions.zipIdx.map Prod.snd) :=
    List.filter_sublist.map Prod.snd
  rw [List.zipIdx_map_snd] at hsublist
  exact List.Pairwise.sublist hsublist (List.pairwise_lt_range' 1)

/-- A round leaves the decisions alone where the one at `index` is the only active one for its
output, or comes after another. Else it fails all of them. -/
inductive Round (decisions : List (Decision Config)) (index : ℕ) :
    List (Decision Config) → Prop where
  | idle (h : ∀ d, decisions[index]? = some d → d.isActive →
      (∀ i ∈ conflicts decisions d.descriptor.outputTypeId, i = index) ∨
        ∃ i ∈ conflicts decisions d.descriptor.outputTypeId, i < index) :
      Round decisions index decisions
  | conflict (d : Decision Config)
      (h : (conflicts decisions d.descriptor.outputTypeId).head? = some index) :
      Round decisions index (decisions.mapIdx fun i candidate =>
        failConflict (conflicts decisions d.descriptor.outputTypeId) d candidate i)

theorem resolveConflict_round (decisions : List (Decision Config)) (index : ℕ) :
    Round decisions index (resolveConflict decisions index) := by
  unfold resolveConflict
  split
  · next hnone => exact .idle fun d hd => by simp [hnone] at hd
  next d hd =>
  by_cases hactive : d.isActive
  case neg =>
    rw [if_pos (by simpa using hactive)]
    refine .idle fun e he hactive' => ?_
    obtain rfl : d = e := Option.some.inj (hd.symm.trans he)
    exact absurd hactive' hactive
  rw [if_neg (by simpa using hactive)]
  have hmem : index ∈ conflicts decisions d.descriptor.outputTypeId :=
    mem_conflicts.mpr ⟨d, hd, hactive, rfl⟩
  have hpairwise := conflicts_pairwise decisions d.descriptor.outputTypeId
  by_cases hquiet : (conflicts decisions d.descriptor.outputTypeId).length < 2 ∨
      (conflicts decisions d.descriptor.outputTypeId).head? ≠ some index
  · rw [if_pos hquiet]
    refine .idle fun e he _ => ?_
    obtain rfl : d = e := Option.some.inj (hd.symm.trans he)
    cases hc : conflicts decisions d.descriptor.outputTypeId with
    | nil => simp [hc] at hmem
    | cons first rest =>
      rw [hc] at hmem hquiet hpairwise
      obtain rfl | hrest := List.mem_cons.mp hmem
      · -- The list starts with `index`, so it is short.
        left
        intro i hi
        have hlength : (index :: rest).length < 2 := by simpa using hquiet
        have hnil : rest = [] := by
          apply List.eq_nil_of_length_eq_zero
          simp only [List.length_cons] at hlength
          omega
        simpa [hnil] using hi
      · right
        exact ⟨first, List.mem_cons_self, List.rel_of_pairwise_cons hpairwise hrest⟩
  · rw [if_neg hquiet]
    push Not at hquiet
    exact .conflict d hquiet.2

/-! ### The invariant of a pass -/

section Pass

variable (registered : List (AutoConfigurationDescriptor Config)) (config : Config)
  (inputs : AutoConfigurationInputs) (moduleGraph : Option ModuleGraph)
  (providers : List ProviderDescriptor) (satisfied : List SatisfiedProvider)

/-- Active decisions were evaluated so, a failure is reported, and no active decision before `bound`
shares its output with another. -/
structure Sound (bound : ℕ) (decisions : List (Decision Config)) : Prop where
  active : ∀ d ∈ decisions, d.isActive → d.descriptor ∈ registered ∧
    (d.descriptor.evaluator
      (contextFor config inputs moduleGraph providers satisfied d.descriptor)).status = .active
  reported : ∀ d ∈ decisions, d.isFailed → ∃ e ∈ decisions, e.isFailed ∧ e.emitDiagnostic
  distinct : ∀ i < bound, ∀ d, decisions[i]? = some d → d.isActive →
    ∀ j ∈ conflicts decisions d.descriptor.outputTypeId, j = i

variable {registered config inputs moduleGraph providers satisfied}

theorem failConflict_active {conflicts : List ℕ} {d candidate : Decision Config} {i : ℕ}
    (h : (failConflict conflicts d candidate i).isActive) :
    failConflict conflicts d candidate i = candidate ∧ i ∉ conflicts := by
  unfold failConflict at h ⊢
  split at h
  · simp [Decision.isActive, AutoConfigurationEvaluation.replaceFailure,
      AutoConfigurationEvaluation.failed] at h
  · next hi => exact ⟨if_neg hi, hi⟩

theorem failConflict_isFailed {conflicts : List ℕ} {d candidate : Decision Config} {i : ℕ}
    (h : i ∈ conflicts) : (failConflict conflicts d candidate i).isFailed := by
  simp [failConflict, h, Decision.isFailed, AutoConfigurationEvaluation.replaceFailure,
    AutoConfigurationEvaluation.failed]

variable {bound : ℕ}

theorem Sound.idle (h : Sound registered config inputs moduleGraph providers satisfied bound
      decisions)
    (hquiet : ∀ d, decisions[bound]? = some d → d.isActive →
      (∀ i ∈ conflicts decisions d.descriptor.outputTypeId, i = bound) ∨
        ∃ i ∈ conflicts decisions d.descriptor.outputTypeId, i < bound) :
    Sound registered config inputs moduleGraph providers satisfied (bound + 1) decisions := by
  refine ⟨h.active, h.reported, fun i hi d hd hactive => ?_⟩
  by_cases hlt : i < bound
  · exact h.distinct i hlt d hd hactive
  obtain rfl : i = bound := by omega
  obtain honly | ⟨j, hj, hjlt⟩ := hquiet d hd hactive
  · exact honly
  · -- An earlier decision with this output would have been alone with it.
    obtain ⟨e, he, heactive, htype⟩ := mem_conflicts.mp hj
    have hself : i ∈ conflicts decisions e.descriptor.outputTypeId :=
      mem_conflicts.mpr ⟨d, hd, hactive, htype.symm⟩
    have := h.distinct j hjlt e he heactive i hself
    omega

theorem Sound.conflict (h : Sound registered config inputs moduleGraph providers satisfied bound
      decisions) {d : Decision Config}
    (hhead : (conflicts decisions d.descriptor.outputTypeId).head? = some bound) :
    Sound registered config inputs moduleGraph providers satisfied (bound + 1)
      (decisions.mapIdx fun i candidate =>
        failConflict (conflicts decisions d.descriptor.outputTypeId) d candidate i) := by
  have hbound : bound ∈ conflicts decisions d.descriptor.outputTypeId :=
    List.mem_of_mem_head? hhead
  have hkept : ∀ i e, (decisions.mapIdx fun i candidate =>
      failConflict (conflicts decisions d.descriptor.outputTypeId) d candidate i)[i]? = some e →
      e.isActive → decisions[i]? = some e ∧ i ≠ bound := by
    intro i e he hactive
    obtain ⟨candidate, hcandidate, rfl⟩ : ∃ candidate, decisions[i]? = some candidate ∧
        failConflict (conflicts decisions d.descriptor.outputTypeId) d candidate i = e := by
      simpa using he
    obtain ⟨heq, hnot⟩ := failConflict_active hactive
    refine ⟨by rw [heq]; exact hcandidate, ?_⟩
    rintro rfl
    exact hnot hbound
  refine ⟨?_, ?_, ?_⟩
  · intro e he hactive
    obtain ⟨i, hi⟩ := List.mem_iff_getElem?.mp he
    exact h.active e (List.mem_of_getElem? (hkept i e hi hactive).1) hactive
  · intro _ _ _
    obtain ⟨candidate, hcandidate, -⟩ := mem_conflicts.mp hbound
    refine ⟨failConflict (conflicts decisions d.descriptor.outputTypeId) d candidate bound,
      List.mem_of_getElem? (by simpa using ⟨candidate, hcandidate, rfl⟩),
      failConflict_isFailed hbound, ?_⟩
    simp [failConflict, hbound, hhead]
  · intro i hi e he hactive j hj
    obtain ⟨he', hne⟩ := hkept i e he hactive
    obtain ⟨e', hj', hactive', htype⟩ := mem_conflicts.mp hj
    have hmem : j ∈ conflicts decisions e.descriptor.outputTypeId :=
      mem_conflicts.mpr ⟨e', (hkept j e' hj' hactive').1, hactive', htype⟩
    exact h.distinct i (by omega) e he' hactive j hmem

theorem Sound.round (h : Sound registered config inputs moduleGraph providers satisfied bound
      decisions) :
    Sound registered config inputs moduleGraph providers satisfied (bound + 1)
      (resolveConflict decisions bound) := by
  have hround := resolveConflict_round decisions bound
  generalize resolveConflict decisions bound = resolved at hround
  cases hround with
  | idle hquiet => exact h.idle hquiet
  | conflict d hhead => exact h.conflict hhead

/-! ### A whole pass -/

theorem sound_group {group : List (AutoConfigurationDescriptor Config)}
    (h : ∀ d ∈ group, d ∈ registered) :
    Sound registered config inputs moduleGraph providers satisfied 0
      (decideGroup config inputs moduleGraph providers satisfied group) := by
  refine ⟨?_, ?_, fun i hi => absurd hi (Nat.not_lt_zero i)⟩
  · intro d hd hactive
    unfold decideGroup at hd
    split at hd
    · simp at hd
    · next descriptor =>
      obtain rfl := List.mem_singleton.mp hd
      exact ⟨h descriptor List.mem_cons_self, by simpa [Decision.isActive] using hactive⟩
    · -- A shared identifier only gives failures.
      obtain ⟨i, hi, rfl⟩ := List.mem_mapIdx.mp hd
      simp [Decision.isActive, AutoConfigurationEvaluation.failed] at hactive
  · intro d hd hfailed
    unfold decideGroup at hd ⊢
    split at hd
    · simp at hd
    · obtain rfl := List.mem_singleton.mp hd
      exact ⟨_, hd, hfailed, rfl⟩
    · next first second rest =>
      refine ⟨_, List.mem_mapIdx.mpr ⟨0, by simp, rfl⟩, ?_, ?_⟩
      · simp [Decision.isFailed, AutoConfigurationEvaluation.failed]
      · simp

theorem sound_groups {groups : List (List (AutoConfigurationDescriptor Config))}
    (h : ∀ group ∈ groups, ∀ d ∈ group, d ∈ registered) :
    Sound registered config inputs moduleGraph providers satisfied 0
      (groups.flatMap (decideGroup config inputs moduleGraph providers satisfied)) := by
  have hgroup : ∀ group ∈ groups, Sound registered config inputs moduleGraph providers satisfied 0
      (decideGroup config inputs moduleGraph providers satisfied group) :=
    fun group hgroup => sound_group (h group hgroup)
  refine ⟨?_, ?_, fun i hi => absurd hi (Nat.not_lt_zero i)⟩
  · intro d hd hactive
    obtain ⟨group, hg, hd⟩ := List.mem_flatMap.mp hd
    exact (hgroup group hg).active d hd hactive
  · intro d hd hfailed
    obtain ⟨group, hg, hd⟩ := List.mem_flatMap.mp hd
    obtain ⟨e, he, hfailed, hemit⟩ := (hgroup group hg).reported d hd hfailed
    exact ⟨e, List.mem_flatMap.mpr ⟨group, hg, he⟩, hfailed, hemit⟩

theorem length_resolveConflict (decisions : List (Decision Config)) (index : ℕ) :
    (resolveConflict decisions index).length = decisions.length := by
  have hround := resolveConflict_round decisions index
  generalize resolveConflict decisions index = resolved at hround
  cases hround with
  | idle => rfl
  | conflict => exact List.length_mapIdx

theorem sound_rounds (h : Sound registered config inputs moduleGraph providers satisfied 0
      decisions) (bound : ℕ) :
    let resolved := (List.range bound).foldl resolveConflict decisions
    resolved.length = decisions.length ∧
      Sound registered config inputs moduleGraph providers satisfied bound resolved := by
  induction bound with
  | zero => exact ⟨rfl, h⟩
  | succ bound ih =>
    obtain ⟨hlength, hsound⟩ := ih
    rw [List.range_succ, List.foldl_concat]
    exact ⟨(length_resolveConflict _ _).trans hlength, hsound.round⟩

theorem sound_decide : Sound registered config inputs moduleGraph providers satisfied
    (decide registered providers satisfied config inputs moduleGraph).length
    (decide registered providers satisfied config inputs moduleGraph) := by
  have hgroups : ∀ group ∈ (sortBy descriptorOrder registered).splitBy
      (fun left right => left.identifier = right.identifier), ∀ d ∈ group, d ∈ registered := by
    intro group hgroup d hd
    have hflat : d ∈ ((sortBy descriptorOrder registered).splitBy
        (fun left right => left.identifier = right.identifier)).flatten :=
      List.mem_flatten.mpr ⟨group, hgroup, hd⟩
    rw [List.flatten_splitBy] at hflat
    exact mem_sortBy.mp hflat
  have hsound : Sound registered config inputs moduleGraph providers satisfied 0
      (((sortBy descriptorOrder registered).splitBy
        (fun left right => left.identifier = right.identifier)).flatMap
          (decideGroup config inputs moduleGraph providers satisfied)) := sound_groups hgroups
  obtain ⟨hlength, hsound⟩ := sound_rounds hsound _
  rw [decide, hlength]
  exact hsound

/-! ### Every descriptor is decided -/

variable (registered config inputs moduleGraph providers satisfied) in
/-- Each registered descriptor has a decision, which is that of its evaluator or a failure. -/
def Decided (decisions : List (Decision Config)) : Prop :=
  ∀ d ∈ registered, ∃ decision ∈ decisions, decision.descriptor = d ∧
    (decision.evaluation =
        d.evaluator (contextFor config inputs moduleGraph providers satisfied d) ∨
      decision.isFailed)

theorem decided_group {group : List (AutoConfigurationDescriptor Config)} :
    Decided group config inputs moduleGraph providers satisfied
      (decideGroup config inputs moduleGraph providers satisfied group) := by
  intro d hd
  unfold decideGroup
  split
  · simp at hd
  · obtain rfl := List.mem_singleton.mp hd
    exact ⟨_, List.mem_singleton_self _, rfl, .inl rfl⟩
  · obtain ⟨i, hi, rfl⟩ := List.getElem_of_mem hd
    refine ⟨_, List.mem_mapIdx.mpr ⟨i, hi, rfl⟩, rfl, .inr ?_⟩
    simp [Decision.isFailed, AutoConfigurationEvaluation.failed]

theorem Decided.round (h : Decided registered config inputs moduleGraph providers satisfied
      decisions) (index : ℕ) :
    Decided registered config inputs moduleGraph providers satisfied
      (resolveConflict decisions index) := by
  have hround := resolveConflict_round decisions index
  generalize resolveConflict decisions index = resolved at hround
  cases hround with
  | idle _ => exact h
  | conflict e hhead =>
    intro d hd
    obtain ⟨decision, hdecision, hdescriptor, hevaluation⟩ := h d hd
    obtain ⟨i, hi, rfl⟩ := List.getElem_of_mem hdecision
    refine ⟨_, List.mem_mapIdx.mpr ⟨i, hi, rfl⟩, ?_, ?_⟩
    · rw [← hdescriptor, failConflict]
      split <;> rfl
    · by_cases hmem : i ∈ conflicts decisions e.descriptor.outputTypeId
      · exact .inr (failConflict_isFailed hmem)
      · rw [failConflict, if_neg hmem]
        exact hevaluation

theorem decided_decide : Decided registered config inputs moduleGraph providers satisfied
    (decide registered providers satisfied config inputs moduleGraph) := by
  have hrounds : ∀ bound decisions,
      Decided registered config inputs moduleGraph providers satisfied decisions →
      Decided registered config inputs moduleGraph providers satisfied
        ((List.range bound).foldl resolveConflict decisions) := by
    intro bound decisions h
    induction bound with
    | zero => exact h
    | succ bound ih =>
      rw [List.range_succ, List.foldl_concat]
      exact ih.round bound
  refine hrounds _ _ fun d hd => ?_
  have hflat : d ∈ ((sortBy descriptorOrder registered).splitBy
      (fun left right => left.identifier = right.identifier)).flatten := by
    rw [List.flatten_splitBy]
    exact mem_sortBy.mpr hd
  obtain ⟨group, hgroup, hd⟩ := List.mem_flatten.mp hflat
  obtain ⟨decision, hdecision, hrest⟩ := decided_group d hd
  exact ⟨decision, List.mem_flatMap.mpr ⟨group, hgroup, hdecision⟩, hrest⟩

variable (registered config inputs moduleGraph providers satisfied)

/-- What later phases use of a pass: what it selected evaluated to active, no two of these have one
output, no missing type is covered in silence, and where nothing is reported every evaluator has its
way. -/
structure Selects (analysis : Analysis Config) : Prop where
  active : ∀ d ∈ analysis.selected, d ∈ registered ∧
    (d.evaluator (contextFor config inputs moduleGraph providers satisfied d)).status = .active
  outputs_nodup : (analysis.selected.map (·.outputTypeId)).Nodup
  virtual : analysis.virtualSatisfied =
    analysis.selected.map fun d => SatisfiedProvider.autoConfigured d.outputTypeId d.outputTypeName
  covered : analysis.coveredMissing ≠ [] → analysis.diagnostics ≠ []
  unfailed : analysis.diagnostics = [] → ∀ d ∈ registered,
    (d.evaluator (contextFor config inputs moduleGraph providers satisfied d)).status ≠ .failed ∧
      ((d.evaluator (contextFor config inputs moduleGraph providers satisfied d)).status = .active →
        d ∈ analysis.selected)

end Pass

theorem Sound.outputs_nodup {registered : List (AutoConfigurationDescriptor Config)}
    {config : Config} {inputs : AutoConfigurationInputs} {moduleGraph : Option ModuleGraph}
    {providers : List ProviderDescriptor} {satisfied : List SatisfiedProvider}
    (h : Sound registered config inputs moduleGraph providers satisfied decisions.length
      decisions) :
    ((selectedOf decisions).map (·.outputTypeId)).Nodup := by
  rw [selectedOf, List.map_map]
  refine List.Pairwise.map _ (R := fun d e : Decision Config =>
    d.descriptor.outputTypeId ≠ e.descriptor.outputTypeId) (fun _ _ hne => hne) ?_
  rw [List.pairwise_filter, List.pairwise_iff_getElem]
  intro i j hi hj hlt hactive hactive' htype
  have hmem : j ∈ conflicts decisions decisions[i].descriptor.outputTypeId :=
    mem_conflicts.mpr ⟨_, List.getElem?_eq_getElem hj, hactive', htype.symm⟩
  have := h.distinct i hi _ (List.getElem?_eq_getElem hi) hactive j hmem
  omega

theorem coveredMissing_eq_nil (h : ∀ d ∈ decisions, d.isFailed = false) :
    coveredMissing decisions = [] := by
  have hnone : decisions.filter (fun d => d.isFailed && d.hasDirectRequirement) = [] := by
    rw [List.filter_eq_nil_iff]
    intro d hd
    simp [h d hd]
  simp [coveredMissing, hnone, sortBy]

theorem mem_diagnosticsOf {d : Decision Config} (hd : d ∈ decisions) (hfailed : d.isFailed)
    (hemit : d.emitDiagnostic) : diagnosticsOf decisions ≠ [] := by
  have hstatus : d.evaluation.status = .failed := by simpa [Decision.isFailed] using hfailed
  obtain ⟨error, herror⟩ := Option.isSome_iff_exists.mp (d.evaluation.failure_iff.mpr hstatus)
  have hmem : error.primary ∈ diagnosticsOf decisions := by
    refine List.mem_map_of_mem (List.mem_filterMap.mpr ⟨d, ?_, herror⟩)
    exact List.mem_filter.mpr ⟨hd, hemit⟩
  exact List.ne_nil_of_mem hmem

/-- Where a pass reports nothing, none of its decisions failed. -/
theorem diagnosticsOf_ne_nil (registered : List (AutoConfigurationDescriptor Config))
    (providers : List ProviderDescriptor) (satisfied : List SatisfiedProvider) (config : Config)
    (inputs : AutoConfigurationInputs) (moduleGraph : Option ModuleGraph) :
    ∀ d ∈ decide registered providers satisfied config inputs moduleGraph, d.isFailed →
      diagnosticsOf (decide registered providers satisfied config inputs moduleGraph) ≠ [] := by
  intro d hd hfailed
  have hsound : Sound registered config inputs moduleGraph providers satisfied _
      (decide registered providers satisfied config inputs moduleGraph) := sound_decide
  obtain ⟨e, he, hfailed, hemit⟩ := hsound.reported d hd hfailed
  exact mem_diagnosticsOf he hfailed hemit

theorem reports_unfailed {registered : List (AutoConfigurationDescriptor Config)}
    {providers : List ProviderDescriptor} {satisfied : List SatisfiedProvider} {config : Config}
    {inputs : AutoConfigurationInputs} {moduleGraph : Option ModuleGraph}
    (hnil : (analyzeParts registered providers satisfied config inputs moduleGraph).diagnostics =
      []) :
    ∀ report ∈ (analyzeParts registered providers satisfied config inputs moduleGraph).reports,
      report.status ≠ .failed := by
  intro report hreport hfailed
  obtain ⟨d, hd, rfl⟩ := List.mem_map.mp hreport
  refine diagnosticsOf_ne_nil registered providers satisfied config inputs moduleGraph d hd ?_ hnil
  exact decide_eq_true hfailed

theorem analyzeParts_selects (registered : List (AutoConfigurationDescriptor Config))
    (providers : List ProviderDescriptor) (satisfied : List SatisfiedProvider) (config : Config)
    (inputs : AutoConfigurationInputs) (moduleGraph : Option ModuleGraph) :
    Selects registered config inputs moduleGraph providers satisfied
      (analyzeParts registered providers satisfied config inputs moduleGraph) := by
  have hsound : Sound registered config inputs moduleGraph providers satisfied _
      (decide registered providers satisfied config inputs moduleGraph) := sound_decide
  have hfailed := diagnosticsOf_ne_nil registered providers satisfied config inputs moduleGraph
  refine ⟨?_, hsound.outputs_nodup, rfl, ?_, fun hnil d hd => ?_⟩
  · intro d hd
    obtain ⟨decision, hdecision, rfl⟩ := List.mem_map.mp hd
    obtain ⟨hmem, hactive⟩ := List.mem_filter.mp hdecision
    exact hsound.active decision hmem hactive
  · intro hcovered hnil
    refine hcovered (coveredMissing_eq_nil fun d hd => ?_)
    by_contra h
    exact hfailed d hd (by simpa using h) hnil
  · obtain ⟨decision, hdecision, rfl, hevaluation⟩ := decided_decide d hd
    have hunfailed : ¬ decision.isFailed := fun h => hfailed decision hdecision h hnil
    have heq := hevaluation.resolve_right hunfailed
    rw [← heq]
    refine ⟨by simpa [Decision.isFailed] using hunfailed, fun hactive => ?_⟩
    exact List.mem_map_of_mem (List.mem_filter.mpr ⟨hdecision, by simpa [Decision.isActive]⟩)

end Mads.AutoConfiguration
