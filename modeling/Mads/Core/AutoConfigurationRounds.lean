import Mads.Core.AutoConfigurationSelection

/-!
# The conflict loop as one map

The rounds of the conflict loop amount to one map over the decisions, so that what becomes of a
decision can be read off the active ones it shares its output with.
-/

namespace Mads.AutoConfiguration

variable {Config : Type} (decisions : List (Decision Config))

/-! ### Rounds -/

/-- Whether the first `bound` rounds have failed the active decisions for an output. -/
def settled (bound : ℕ) (outputTypeId : TypeId) : Bool :=
  match conflicts decisions outputTypeId with
  | first :: _ :: _ => first < bound
  | _ => false

/-- What the first `bound` rounds make of the decision at `index`. -/
def settleAt (bound index : ℕ) (decision : Decision Config) : Decision Config :=
  let rivals := conflicts decisions decision.descriptor.outputTypeId
  if decision.isActive && settled decisions bound decision.descriptor.outputTypeId then
    failConflict rivals (decisions.getD (rivals.headD 0) decision) decision index
  else decision

variable {decisions} {bound index : ℕ} {decision : Decision Config} {t : TypeId}

theorem settled_iff : settled decisions bound t = true ↔ ∃ first second rest,
    conflicts decisions t = first :: second :: rest ∧ first < bound := by
  unfold settled
  match conflicts decisions t with
  | [] => simp
  | [_] => simp
  | first :: second :: rest => simp

theorem failConflict_descriptor (conflicts : List ℕ) (d candidate : Decision Config) (i : ℕ) :
    (failConflict conflicts d candidate i).descriptor = candidate.descriptor := by
  unfold failConflict
  split <;> rfl

theorem settleAt_descriptor :
    (settleAt decisions bound index decision).descriptor = decision.descriptor := by
  unfold settleAt
  dsimp only
  split
  · exact failConflict_descriptor ..
  · rfl

theorem settleAt_isActive (h : decisions[index]? = some decision) :
    (settleAt decisions bound index decision).isActive = true ↔ decision.isActive = true ∧
      settled decisions bound decision.descriptor.outputTypeId = false := by
  unfold settleAt
  dsimp only
  by_cases hactive : decision.isActive = true
  · by_cases hsettled : settled decisions bound decision.descriptor.outputTypeId = true
    · have hmem : index ∈ conflicts decisions decision.descriptor.outputTypeId :=
        mem_conflicts.mpr ⟨decision, h, hactive, rfl⟩
      rw [if_pos (by simp [hactive, hsettled])]
      refine ⟨fun hkept => absurd hmem (failConflict_active hkept).2, fun hkept => ?_⟩
      rw [hsettled] at hkept
      simp at hkept
    · simp [hactive, hsettled]
  · simp [hactive]

theorem pairwise_lt_ext {xs ys : List ℕ} (hx : xs.Pairwise (· < ·)) (hy : ys.Pairwise (· < ·))
    (h : ∀ i, i ∈ xs ↔ i ∈ ys) : xs = ys := by
  have hperm : xs.Perm ys :=
    (List.perm_ext_iff_of_nodup (hx.imp Nat.ne_of_lt) (hy.imp Nat.ne_of_lt)).mpr h
  exact hperm.eq_of_pairwise (fun _ _ _ _ hlt hgt => absurd hgt hlt.asymm) hx hy

/-- The rounds leave no active decision for a settled output, and all of them for any other. -/
theorem conflicts_settleAt : conflicts (decisions.mapIdx (settleAt decisions bound)) t =
    if settled decisions bound t then [] else conflicts decisions t := by
  have hmem : ∀ i, i ∈ conflicts (decisions.mapIdx (settleAt decisions bound)) t ↔
      i ∈ conflicts decisions t ∧ settled decisions bound t = false := by
    intro i
    rw [mem_conflicts, mem_conflicts, List.getElem?_mapIdx]
    cases h : decisions[i]? with
    | none => simp
    | some d =>
      simp only [Option.map_some, Option.some.injEq, exists_eq_left', settleAt_isActive h,
        settleAt_descriptor]
      constructor
      · rintro ⟨⟨hactive, hsettled⟩, rfl⟩
        exact ⟨⟨hactive, rfl⟩, hsettled⟩
      · rintro ⟨⟨hactive, rfl⟩, hsettled⟩
        exact ⟨⟨hactive, hsettled⟩, rfl⟩
  by_cases hsettled : settled decisions bound t = true
  · rw [if_pos hsettled, List.eq_nil_iff_forall_not_mem]
    intro i hi
    have := ((hmem i).mp hi).2
    rw [hsettled] at this
    cases this
  · rw [if_neg hsettled]
    apply pairwise_lt_ext (conflicts_pairwise _ t) (conflicts_pairwise _ t)
    intro i
    rw [hmem]
    simp [hsettled]

/-- A round settles the outputs whose first active decision stands at its index. -/
theorem settled_succ : settled decisions (bound + 1) t = true ↔ settled decisions bound t = true ∨
    ∃ second rest, conflicts decisions t = bound :: second :: rest := by
  rw [settled_iff, settled_iff]
  constructor
  · rintro ⟨first, second, rest, h, hlt⟩
    by_cases heq : first = bound
    · exact .inr ⟨second, rest, heq ▸ h⟩
    · exact .inl ⟨first, second, rest, h, by omega⟩
  · rintro (⟨first, second, rest, h, hlt⟩ | ⟨second, rest, h⟩)
    · exact ⟨first, second, rest, h, by omega⟩
    · exact ⟨bound, second, rest, h, by omega⟩

theorem settleAt_succ (h : ∀ second rest,
      conflicts decisions decision.descriptor.outputTypeId ≠ bound :: second :: rest) :
    settleAt decisions (bound + 1) index decision = settleAt decisions bound index decision := by
  have hsame : settled decisions (bound + 1) decision.descriptor.outputTypeId =
      settled decisions bound decision.descriptor.outputTypeId := by
    rw [Bool.eq_iff_iff, settled_succ, or_iff_left]
    rintro ⟨second, rest, heq⟩
    exact h second rest heq
  unfold settleAt
  rw [hsame]

theorem settleAt_unsettled
    (h : settled decisions bound decision.descriptor.outputTypeId = false) :
    settleAt decisions bound index decision = decision := by
  unfold settleAt
  rw [h, Bool.and_false]
  rfl

/-- The round of the first active decision for an output fails all of them. -/
theorem failConflict_settleAt {d : Decision Config} {second : ℕ} {rest : List ℕ}
    (hd : decisions[bound]? = some d)
    (hunsettled : settled decisions bound d.descriptor.outputTypeId = false)
    (hconflicts : conflicts decisions d.descriptor.outputTypeId = bound :: second :: rest)
    (h : decisions[index]? = some decision) :
    failConflict (conflicts decisions d.descriptor.outputTypeId) d
        (settleAt decisions bound index decision) index =
      settleAt decisions (bound + 1) index decision := by
  by_cases hmem : index ∈ conflicts decisions d.descriptor.outputTypeId
  · obtain ⟨e, he, hactive, htype⟩ := mem_conflicts.mp hmem
    obtain rfl : decision = e := Option.some.inj (h.symm.trans he)
    rw [settleAt_unsettled (htype ▸ hunsettled)]
    have hsettled : settled decisions (bound + 1) decision.descriptor.outputTypeId = true :=
      settled_succ.mpr (.inr ⟨second, rest, htype ▸ hconflicts⟩)
    have hfirst : decisions.getD ((conflicts decisions d.descriptor.outputTypeId).headD 0)
        decision = d := by
      rw [hconflicts]
      simp [hd]
    unfold settleAt
    rw [hactive, hsettled, htype]
    dsimp only
    rw [hfirst]
    rfl
  · have hkept : ∀ candidate : Decision Config,
        failConflict (conflicts decisions d.descriptor.outputTypeId) d candidate index =
          candidate := fun candidate => if_neg hmem
    rw [hkept]
    by_cases hactive : decision.isActive = true
    · refine (settleAt_succ fun second rest heq => ?_).symm
      obtain ⟨e, he, -, htype⟩ := mem_conflicts.mp (heq ▸ List.mem_cons_self)
      obtain rfl : d = e := Option.some.inj (hd.symm.trans he)
      exact hmem (mem_conflicts.mpr ⟨decision, h, hactive, htype.symm⟩)
    · simp [settleAt, hactive]

theorem resolveConflict_settleAt :
    resolveConflict (decisions.mapIdx (settleAt decisions bound)) bound =
      decisions.mapIdx (settleAt decisions (bound + 1)) := by
  -- a round changes nothing where its decision does not lead an unsettled conflict
  have hquiet : (∀ d, decisions[bound]? = some d → d.isActive = true → ∀ second rest,
      conflicts decisions d.descriptor.outputTypeId ≠ bound :: second :: rest) →
      decisions.mapIdx (settleAt decisions bound) =
        decisions.mapIdx (settleAt decisions (bound + 1)) := by
    intro h
    apply List.mapIdx_eq_mapIdx_iff.mpr
    intro i hi
    refine (settleAt_succ fun second rest heq => ?_).symm
    obtain ⟨d, hd, hactive, htype⟩ := mem_conflicts.mp (heq ▸ List.mem_cons_self)
    exact h d hd hactive second rest (htype ▸ heq)
  unfold resolveConflict
  rw [List.getElem?_mapIdx]
  cases hd : decisions[bound]? with
  | none => exact hquiet fun d h => absurd h (by simp [hd])
  | some d =>
    simp only [Option.map_some, settleAt_descriptor]
    by_cases hactive : (settleAt decisions bound bound d).isActive = true
    · obtain ⟨hd', hunsettled⟩ := (settleAt_isActive hd).mp hactive
      have hrivals : conflicts (decisions.mapIdx (settleAt decisions bound))
          d.descriptor.outputTypeId = conflicts decisions d.descriptor.outputTypeId := by
        rw [conflicts_settleAt, hunsettled]
        rfl
      have hself : settleAt decisions bound bound d = d := settleAt_unsettled hunsettled
      simp only [hself, hd', Bool.not_true, Bool.false_eq_true, if_false, hrivals]
      by_cases hshort : (conflicts decisions d.descriptor.outputTypeId).length < 2 ∨
          (conflicts decisions d.descriptor.outputTypeId).head? ≠ some bound
      · rw [if_pos hshort]
        refine hquiet fun e he _ second rest heq => ?_
        obtain rfl : d = e := Option.some.inj (hd.symm.trans he)
        rw [heq] at hshort
        simp only [List.length_cons, List.head?_cons, ne_eq, not_true_eq_false, or_false] at hshort
        omega
      · rw [if_neg hshort]
        push Not at hshort
        obtain ⟨second, rest, hconflicts⟩ : ∃ second rest,
            conflicts decisions d.descriptor.outputTypeId = bound :: second :: rest := by
          match hc : conflicts decisions d.descriptor.outputTypeId with
          | [] => simp [hc] at hshort
          | [_] => simp [hc] at hshort
          | first :: second :: rest =>
            rw [hc] at hshort
            obtain rfl : first = bound := by simpa using hshort.2
            exact ⟨second, rest, rfl⟩
        rw [List.mapIdx_mapIdx]
        apply List.mapIdx_eq_mapIdx_iff.mpr
        intro i hi
        exact failConflict_settleAt hd hunsettled hconflicts (List.getElem?_eq_getElem hi)
    · rw [if_pos (by simpa using hactive)]
      refine hquiet fun e he hactive' second rest heq => ?_
      obtain rfl : d = e := Option.some.inj (hd.symm.trans he)
      refine hactive ((settleAt_isActive hd).mpr ⟨hactive', ?_⟩)
      rw [← Bool.not_eq_true, settled_iff]
      rintro ⟨first, second', rest', heq', hlt⟩
      rw [heq] at heq'
      obtain ⟨rfl, -⟩ := List.cons.inj heq'
      omega

theorem rounds_settleAt (bound : ℕ) :
    (List.range bound).foldl resolveConflict decisions =
      decisions.mapIdx (settleAt decisions bound) := by
  induction bound with
  | zero =>
    have hnone : ∀ t, settled decisions 0 t = false := by
      intro t
      rw [← Bool.not_eq_true, settled_iff]
      rintro ⟨first, second, rest, -, hlt⟩
      omega
    have hself : settleAt decisions 0 = fun _ decision => decision := by
      funext index decision
      exact settleAt_unsettled (hnone _)
    rw [hself, List.range_zero, List.foldl_nil]
    apply List.ext_getElem?
    intro i
    rw [List.getElem?_mapIdx, Option.map_id']
  | succ bound ih =>
    rw [List.range_succ, List.foldl_concat, ih, resolveConflict_settleAt]

/-! ### Rivals -/

variable (decisions) in
/-- The active decisions for an output. -/
def rivals (outputTypeId : TypeId) : List (Decision Config) :=
  decisions.filter (fun d => d.isActive && d.descriptor.outputTypeId = outputTypeId)

variable (decisions) in
/-- What the conflict loop makes of a decision, read off its rivals. -/
def settle (decision : Decision Config) : Decision Config :=
  match rivals decisions decision.descriptor.outputTypeId with
  | first :: _ :: _ =>
    if decision.isActive then
      { decision with
        evaluation := decision.evaluation.replaceFailure ⟨"conflicting_default"⟩
          "multiple auto-configuration defaults conflict"
          (Error.fromDiagnostics (conflictingDefaultDiagnostic first.descriptor) [])
        emitDiagnostic := decision.descriptor.identifier = first.descriptor.identifier }
    else decision
  | _ => decision

theorem settle_inactive (h : ¬ decision.isActive = true) : settle decisions decision = decision := by
  unfold settle
  split
  · exact if_neg h
  · rfl

/-- The conflicts are the positions of the rivals. -/
theorem map_conflicts (t : TypeId) :
    List.Forall₂ (fun i d => decisions[i]? = some d) (conflicts decisions t)
      (rivals decisions t) := by
  have hfst : rivals decisions t = (decisions.zipIdx.filter (fun entry =>
      entry.1.isActive && entry.1.descriptor.outputTypeId = t)).map Prod.fst := by
    have hmap := List.filter_map (f := Prod.fst) (l := decisions.zipIdx)
      (p := fun d : Decision Config => d.isActive && d.descriptor.outputTypeId = t)
    rw [List.zipIdx_map_fst] at hmap
    exact hmap
  have hsnd : conflicts decisions t = (decisions.zipIdx.filter (fun entry =>
      entry.1.isActive && entry.1.descriptor.outputTypeId = t)).map Prod.snd := rfl
  rw [hfst, hsnd, List.forall₂_map_left_iff, List.forall₂_map_right_iff, List.forall₂_same]
  intro pair hpair
  exact List.mem_zipIdx_iff_getElem?.mp (List.mem_filter.mp hpair).1

/-- No two active decisions share their identifier. -/
def ActiveApart (decisions : List (Decision Config)) : Prop :=
  decisions.Pairwise (fun d e => d.isActive = true → e.isActive = true →
    d.descriptor.identifier ≠ e.descriptor.identifier)

theorem ActiveApart.eq_of_identifier (h : ActiveApart decisions) {i j : ℕ}
    {d e : Decision Config} (hi : decisions[i]? = some d) (hj : decisions[j]? = some e)
    (hd : d.isActive = true) (he : e.isActive = true)
    (heq : d.descriptor.identifier = e.descriptor.identifier) : i = j := by
  obtain ⟨hi', rfl⟩ := List.getElem?_eq_some_iff.mp hi
  obtain ⟨hj', rfl⟩ := List.getElem?_eq_some_iff.mp hj
  rcases Nat.lt_trichotomy i j with hlt | heq' | hlt
  · exact absurd heq (List.pairwise_iff_getElem.mp h i j hi' hj' hlt hd he)
  · exact heq'
  · exact absurd heq.symm (List.pairwise_iff_getElem.mp h j i hj' hi' hlt he hd)

theorem settleAt_eq_settle (h : ActiveApart decisions)
    (hdecision : decisions[index]? = some decision) :
    settleAt decisions decisions.length index decision = settle decisions decision := by
  by_cases hactive : decision.isActive = true
  · -- the positions and the decisions of a conflict are two lists of one length
    have hpositions : List.Forall₂ (fun i d => decisions[i]? = some d)
        (conflicts decisions decision.descriptor.outputTypeId)
        (rivals decisions decision.descriptor.outputTypeId) := map_conflicts _
    unfold settle
    match hc : conflicts decisions decision.descriptor.outputTypeId,
        hr : rivals decisions decision.descriptor.outputTypeId with
    | [], [] =>
      rw [settleAt_unsettled]
      simp [settled, hc]
    | [_], [_] =>
      rw [settleAt_unsettled]
      simp [settled, hc]
    | [], _ :: _ => simp [hc, hr] at hpositions
    | _ :: _, [] => simp [hc, hr] at hpositions
    | [_], _ :: _ :: _ => simp [hc, hr] at hpositions
    | _ :: _ :: _, [_] => simp [hc, hr] at hpositions
    | first :: second :: rest, rival :: _ :: _ =>
      rw [hc, hr] at hpositions
      obtain ⟨hfirst, -⟩ := List.forall₂_cons.mp hpositions
      obtain ⟨hlt, -⟩ := List.getElem?_eq_some_iff.mp hfirst
      have hrival : rival.isActive = true := by
        have hmem : rival ∈ rivals decisions decision.descriptor.outputTypeId := by simp [hr]
        have := (List.mem_filter.mp hmem).2
        rw [Bool.and_eq_true] at this
        exact this.1
      have hmem : index ∈ conflicts decisions decision.descriptor.outputTypeId :=
        mem_conflicts.mpr ⟨decision, hdecision, hactive, rfl⟩
      have hsettled : settled decisions decisions.length decision.descriptor.outputTypeId = true :=
        settled_iff.mpr ⟨first, second, rest, hc, hlt⟩
      have hemit : (first = index) ↔
          decision.descriptor.identifier = rival.descriptor.identifier := by
        constructor
        · rintro rfl
          rw [Option.some.inj (hdecision.symm.trans hfirst)]
        · intro heq
          exact h.eq_of_identifier hfirst hdecision hrival hactive heq.symm
      unfold settleAt
      dsimp only
      rw [hactive, hsettled, Bool.and_self, if_pos rfl, if_pos rfl, failConflict, if_pos hmem, hc]
      simp [hfirst, hemit]
  · rw [settle_inactive hactive]
    simp [settleAt, hactive]

/-- Where no two active decisions share their identifier, the loop is a map. -/
theorem rounds_eq_map (h : ActiveApart decisions) :
    (List.range decisions.length).foldl resolveConflict decisions =
      decisions.map (settle decisions) := by
  rw [rounds_settleAt]
  apply List.ext_getElem?
  intro i
  rw [List.getElem?_mapIdx, List.getElem?_map]
  cases hi : decisions[i]? with
  | none => rfl
  | some d => exact congrArg some (settleAt_eq_settle h hi)

end Mads.AutoConfiguration
