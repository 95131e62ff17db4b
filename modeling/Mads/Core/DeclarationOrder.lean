import Mads.Core.ValidAnalysis

/-!
# Repeated declarations and the order the linker leaves

The linker hands declarations over in any order. An analysis sorts them first, so that its result
and its reports are those of the declarations and not of their order.
-/

namespace Mads

/-! ### Identities -/

/-- What `exactIdentity` compares. -/
structure Identity where
  typeId : TypeId
  kind : ProviderKind
  typeName : String
  namespace_ : Option String
  visibility : ProviderVisibility
  location : SourceLocation
  dependencies : List TypeId
  deriving DecidableEq

namespace ProviderDescriptor

def identity (descriptor : ProviderDescriptor) : Identity where
  typeId := descriptor.typeId
  kind := descriptor.kind
  typeName := descriptor.typeName
  namespace_ := descriptor.namespace_
  visibility := descriptor.visibility
  location := descriptor.location
  dependencies := descriptor.dependencies.map (·.typeId)

/-- The declaration without the functions that a build calls. -/
def metadata (descriptor : ProviderDescriptor) : ProviderDescriptor :=
  { descriptor with runtimeTypeName := none, constructor_ := 0 }

/-- Two declarations that differ at most in the functions that a build calls. -/
def Identical (left right : ProviderDescriptor) : Prop := left.metadata = right.metadata

instance (left right : ProviderDescriptor) : Decidable (left.Identical right) :=
  inferInstanceAs (Decidable (_ = _))

end ProviderDescriptor

theorem sameTypes_iff (left right : List DependencyDescriptor) :
    (left.length = right.length ∧
        (left.zip right).all (fun pair => pair.1.typeId = pair.2.typeId) = true) ↔
      left.map (·.typeId) = right.map (·.typeId) := by
  induction left generalizing right with
  | nil => cases right <;> simp
  | cons l left ih =>
    cases right with
    | nil => simp
    | cons r right =>
      have := ih right
      simp only [List.length_cons, List.zip_cons_cons, List.all_cons, Bool.and_eq_true,
        decide_eq_true_eq, List.map_cons, List.cons.injEq, ← this]
      constructor
      · rintro ⟨hlength, htype, hall⟩
        exact ⟨htype, by omega, hall⟩
      · rintro ⟨htype, hlength, hall⟩
        exact ⟨by omega, htype, hall⟩

theorem exactIdentity_iff {left right : ProviderDescriptor} :
    exactIdentity left right = true ↔ left.identity = right.identity := by
  have htypes := sameTypes_iff left.dependencies right.dependencies
  simp only [exactIdentity, Bool.and_eq_true, decide_eq_true_eq, ProviderDescriptor.identity,
    Identity.mk.injEq, ← htypes, and_assoc]

theorem ProviderDescriptor.Identical.identity_eq {left right : ProviderDescriptor}
    (h : left.Identical right) : left.identity = right.identity :=
  show left.metadata.identity = right.metadata.identity from congrArg _ h

/-- Declarations compare equal when they agree in type name, kind and location. -/
theorem descriptorOrder_eq_eq {left right : ProviderDescriptor} :
    descriptorOrder left right = .eq ↔ left.typeName = right.typeName ∧ left.kind = right.kind ∧
      left.location = right.location := by
  have hkind : left.kind.discriminant = right.kind.discriminant ↔ left.kind = right.kind := by
    cases left.kind <;> cases right.kind <;> decide
  simp only [descriptorOrder, compareLex_eq_eq, compareOn, compare_eq_iff_eq, locationOrder_eq_eq,
    hkind, and_assoc]

namespace Analysis

/-! ### One report for each repeated identity -/

/-- After a prefix of the declarations: the kept ones stand for the identities of the prefix, and
the reported ones for those that occur in it more than once. -/
structure Grouping.Counts (g : Grouping) (done : List ProviderDescriptor) : Prop where
  reports : g.diagnostics = g.duplicates.map .duplicate
  mem_unique : ∀ d ∈ g.unique, d ∈ done
  identities : ∀ i, i ∈ g.unique.map (·.identity) ↔ i ∈ done.map (·.identity)
  nodup : (g.unique.map (·.identity)).Nodup
  mem_duplicates : ∀ d ∈ g.duplicates, d ∈ done
  repeated : ∀ i, i ∈ g.duplicates.map (·.identity) ↔ 1 < (done.map (·.identity)).count i
  once : (g.duplicates.map (·.identity)).Nodup

theorem Grouping.Counts.add {g : Grouping} {done : List ProviderDescriptor} (h : g.Counts done)
    (d : ProviderDescriptor) : (g.add d).Counts (done ++ [d]) := by
  have hgrows : ∀ e ∈ done, e ∈ done ++ [d] := fun e he => List.mem_append_left _ he
  unfold Grouping.add
  cases hfind : g.unique.find? (fun unique => exactIdentity unique d) with
  | none =>
    -- a new identity is counted once
    have hnew : d.identity ∉ g.unique.map (·.identity) := by
      rw [List.find?_eq_none] at hfind
      intro hmem
      obtain ⟨u, hu, heq⟩ := List.mem_map.mp hmem
      exact hfind u hu (exactIdentity_iff.mpr heq)
    have hzero : (done.map (·.identity)).count d.identity = 0 :=
      List.count_eq_zero.mpr (fun hmem => hnew ((h.identities _).mpr hmem))
    refine ⟨h.reports, ?_, fun i => ?_, ?_, fun e he => hgrows e (h.mem_duplicates e he),
      fun i => ?_, h.once⟩
    · intro e he
      rcases List.mem_append.mp he with he | he
      · exact hgrows e (h.mem_unique e he)
      · exact List.mem_append_right _ he
    · rw [List.map_append, List.map_append, List.mem_append, List.mem_append, h.identities]
    · rw [List.map_append, List.map_singleton, ← List.concat_eq_append]
      exact h.nodup.concat hnew
    · rw [h.repeated, List.map_append, List.map_singleton, List.count_append, List.count_singleton]
      by_cases hi : d.identity = i
      · subst hi
        simp [hzero]
      · simp [hi]
  | some existing =>
    -- a known identity is now counted more than once, and must be reported exactly once
    have hexisting : existing.identity = d.identity := by
      have := List.find?_some hfind
      exact exactIdentity_iff.mp this
    have hunique : existing ∈ g.unique := List.mem_of_find?_eq_some hfind
    have hone : 0 < (done.map (·.identity)).count d.identity := by
      rw [← hexisting]
      exact List.count_pos_iff.mpr (List.mem_map_of_mem (h.mem_unique existing hunique))
    have hidentities : ∀ i, i ∈ g.unique.map (·.identity) ↔
        i ∈ (done ++ [d]).map (·.identity) := by
      intro i
      rw [List.map_append, List.mem_append, h.identities, List.map_singleton, List.mem_singleton]
      refine ⟨Or.inl, fun hi => hi.elim id ?_⟩
      rintro rfl
      exact List.count_pos_iff.mp hone
    have hrepeated : ∀ i, (i = d.identity ∨ i ∈ g.duplicates.map (·.identity)) ↔
        1 < ((done ++ [d]).map (·.identity)).count i := by
      intro i
      rw [h.repeated, List.map_append, List.map_singleton, List.count_append,
        List.count_singleton]
      by_cases hi : d.identity = i
      · subst hi
        simp only [beq_self_eq_true, if_true, true_or, true_iff]
        omega
      · simp [hi, Ne.symm hi]
    dsimp only
    by_cases hany : g.duplicates.any (fun duplicate => exactIdentity duplicate existing) = true
    · -- the identity is reported already
      have hmem : d.identity ∈ g.duplicates.map (·.identity) := by
        obtain ⟨e, he, heq⟩ := List.any_eq_true.mp hany
        exact List.mem_map.mpr ⟨e, he, (exactIdentity_iff.mp heq).trans hexisting⟩
      rw [if_pos hany]
      refine ⟨h.reports, fun e he => hgrows e (h.mem_unique e he), hidentities, h.nodup,
        fun e he => hgrows e (h.mem_duplicates e he), fun i => ?_, h.once⟩
      rw [← hrepeated]
      refine ⟨Or.inr, fun hi => hi.elim ?_ id⟩
      rintro rfl
      exact hmem
    · have hnew : existing.identity ∉ g.duplicates.map (·.identity) := by
        intro hmem
        obtain ⟨e, he, heq⟩ := List.mem_map.mp hmem
        exact hany (List.any_eq_true.mpr ⟨e, he, exactIdentity_iff.mpr heq⟩)
      rw [if_neg hany]
      refine ⟨?_, fun e he => hgrows e (h.mem_unique e he), hidentities, h.nodup, ?_, fun i => ?_,
        ?_⟩
      · rw [h.reports, List.map_append, List.map_singleton]
      · intro e he
        rcases List.mem_append.mp he with he | he
        · exact hgrows e (h.mem_duplicates e he)
        · rw [List.mem_singleton.mp he]
          exact hgrows existing (h.mem_unique existing hunique)
      · rw [← hrepeated, List.map_append, List.mem_append, List.map_singleton, List.mem_singleton,
          hexisting, or_comm]
      · rw [List.map_append, List.map_singleton, ← List.concat_eq_append]
        exact h.once.concat hnew

theorem group_counts (descriptors : List ProviderDescriptor) :
    (group descriptors).Counts (sortBy descriptorOrder descriptors) := by
  have hfold : ∀ (rest done : List ProviderDescriptor) (g : Grouping), g.Counts done →
      (rest.foldl Grouping.add g).Counts (done ++ rest) := by
    intro rest
    induction rest with
    | nil =>
      intro done g h
      simpa using h
    | cons d rest ih =>
      intro done g h
      simpa using ih (done ++ [d]) (g.add d) (h.add d)
  exact hfold _ [] {} ⟨rfl, by simp, by simp, by simp, by simp, by simp, by simp⟩

/-! ### One report for each ambiguous type -/

/-- After a prefix of the kept declarations: one report for each of its types that more than one
kept declaration has. -/
structure Ambiguous (unique done : List ProviderDescriptor)
    (found : List PendingDiagnostic × List TypeId) (reported : List ProviderDescriptor) : Prop where
  reports : found.1 = reported.map .ambiguous
  types : found.2 = reported.map (·.typeId)
  mem_unique : ∀ d ∈ reported, d ∈ unique
  once : (reported.map (·.typeId)).Nodup
  several : ∀ t, t ∈ reported.map (·.typeId) ↔
    t ∈ done.map (·.typeId) ∧ 1 < (sameType unique t).length

theorem Ambiguous.add {unique done reported : List ProviderDescriptor}
    {found : List PendingDiagnostic × List TypeId} (h : Ambiguous unique done found reported)
    (d : ProviderDescriptor) :
    ∃ reported', Ambiguous unique (done ++ [d]) (addAmbiguity unique found d) reported' := by
  have hsingle : (sameType unique d.typeId).length ≤ 1 →
      ∀ t, t ∈ reported.map (·.typeId) ↔
        t ∈ (done ++ [d]).map (·.typeId) ∧ 1 < (sameType unique t).length := by
    intro hshort t
    rw [h.several, List.map_append, List.mem_append, List.map_singleton, List.mem_singleton]
    refine ⟨fun ht => ⟨.inl ht.1, ht.2⟩, fun ht => ⟨ht.1.resolve_right ?_, ht.2⟩⟩
    rintro rfl
    omega
  unfold addAmbiguity
  match hsame : sameType unique d.typeId with
  | [] => exact ⟨reported, h.reports, h.types, h.mem_unique, h.once, hsingle (by simp [hsame])⟩
  | [_] => exact ⟨reported, h.reports, h.types, h.mem_unique, h.once, hsingle (by simp [hsame])⟩
  | first :: second :: rest =>
    -- the first of several providers of the type is reported, when the type is met first
    have hfirst : first ∈ sameType unique d.typeId := by simp [hsame]
    obtain ⟨hmem, htype⟩ := List.mem_filter.mp hfirst
    have htype : first.typeId = d.typeId := of_decide_eq_true htype
    have hmany : 1 < (sameType unique d.typeId).length := by simp [hsame]
    dsimp only
    by_cases hseen : d.typeId ∈ found.2
    · rw [if_pos hseen]
      refine ⟨reported, h.reports, h.types, h.mem_unique, h.once, fun t => ?_⟩
      rw [h.several, List.map_append, List.mem_append, List.map_singleton, List.mem_singleton]
      refine ⟨fun ht => ⟨.inl ht.1, ht.2⟩, fun ht => ⟨ht.1.elim id ?_, ht.2⟩⟩
      rintro rfl
      exact ((h.several _).mp (h.types ▸ hseen)).1
    · rw [if_neg hseen]
      refine ⟨reported ++ [first], by simp [h.reports], by simp [h.types, htype], ?_, ?_,
        fun t => ?_⟩
      · intro e he
        rcases List.mem_append.mp he with he | he
        · exact h.mem_unique e he
        · rw [List.mem_singleton.mp he]
          exact hmem
      · rw [List.map_append, List.map_singleton, ← List.concat_eq_append]
        exact h.once.concat (by rwa [htype, ← h.types])
      · rw [List.map_append, List.mem_append, h.several, List.map_append, List.mem_append,
          List.map_singleton, List.map_singleton, List.mem_singleton, List.mem_singleton, htype,
          or_and_right]
        refine or_congr_right ⟨fun ht => ⟨ht, ?_⟩, And.left⟩
        rw [ht]
        exact hmany

theorem ambiguities_ambiguous (unique : List ProviderDescriptor) :
    ∃ reported, Ambiguous unique unique (ambiguities unique) reported := by
  have hfold : ∀ (rest done : List ProviderDescriptor)
      (found : List PendingDiagnostic × List TypeId) (reported : List ProviderDescriptor),
      Ambiguous unique done found reported → ∃ reported',
        Ambiguous unique (done ++ rest) (rest.foldl (addAmbiguity unique) found) reported' := by
    intro rest
    induction rest with
    | nil =>
      intro done found reported h
      exact ⟨reported, by simpa using h⟩
    | cons d rest ih =>
      intro done found reported h
      obtain ⟨reported', h'⟩ := h.add d
      simpa using ih (done ++ [d]) _ reported' h'
  exact hfold unique [] ([], []) [] ⟨rfl, rfl, by simp, by simp, by simp⟩

/-- A type has several kept declarations exactly when declarations of different identity have it. -/
theorem several_iff {descriptors unique : List ProviderDescriptor}
    (hnodup : (unique.map (·.identity)).Nodup)
    (hidentities : ∀ i, i ∈ unique.map (·.identity) ↔ i ∈ descriptors.map (·.identity))
    (t : TypeId) :
    1 < (sameType unique t).length ↔ ∃ d ∈ descriptors, ∃ e ∈ descriptors,
      d.typeId = t ∧ e.typeId = t ∧ d.identity ≠ e.identity := by
  have hlift : ∀ d ∈ descriptors, ∃ u ∈ unique, u.identity = d.identity := fun d hd =>
    List.mem_map.mp ((hidentities _).mpr (List.mem_map_of_mem hd))
  have hlower : ∀ u ∈ unique, ∃ d ∈ descriptors, d.identity = u.identity := fun u hu =>
    List.mem_map.mp ((hidentities _).mp (List.mem_map_of_mem hu))
  constructor
  · intro hmany
    match hsame : sameType unique t with
    | [] => simp [hsame] at hmany
    | [_] => simp [hsame] at hmany
    | u :: v :: rest =>
      have hsub : (sameType unique t).Sublist unique := List.filter_sublist
      have hdistinct : ((sameType unique t).map (·.identity)).Nodup := hnodup.sublist (hsub.map _)
      have hne : u.identity ≠ v.identity := by
        rw [hsame] at hdistinct
        simp only [List.map_cons, List.nodup_cons, List.mem_cons, not_or] at hdistinct
        exact hdistinct.1.1
      obtain ⟨hu, hut⟩ := List.mem_filter.mp (show u ∈ sameType unique t by simp [hsame])
      obtain ⟨hv, hvt⟩ := List.mem_filter.mp (show v ∈ sameType unique t by simp [hsame])
      obtain ⟨d, hd, hdu⟩ := hlower u hu
      obtain ⟨e, he, hev⟩ := hlower v hv
      refine ⟨d, hd, e, he, ?_, ?_, by rwa [hdu, hev]⟩
      · exact (congrArg Identity.typeId hdu).trans (of_decide_eq_true hut)
      · exact (congrArg Identity.typeId hev).trans (of_decide_eq_true hvt)
  · rintro ⟨d, hd, e, he, hdt, het, hne⟩
    obtain ⟨u, hu, hud⟩ := hlift d hd
    obtain ⟨v, hv, hve⟩ := hlift e he
    have hut : u.typeId = t := (congrArg Identity.typeId hud).trans hdt
    have hvt : v.typeId = t := (congrArg Identity.typeId hve).trans het
    have hmemu : u ∈ sameType unique t := List.mem_filter.mpr ⟨hu, decide_eq_true hut⟩
    have hmemv : v ∈ sameType unique t := List.mem_filter.mpr ⟨hv, decide_eq_true hvt⟩
    by_contra hshort
    match hsame : sameType unique t with
    | [] => simp [hsame] at hmemu
    | [w] =>
      rw [hsame, List.mem_singleton] at hmemu hmemv
      exact hne (hud.symm.trans ((congrArg _ (hmemu.trans hmemv.symm)).trans hve))
    | _ :: _ :: rest => simp [hsame] at hshort

/-! ### The reports of an analysis, by their codes -/

theorem linkDependency_codes {providers : List ProviderNode} {ambiguousTypes coveredMissing :
    List TypeId} {provider : ProviderNode} {links after : Links} {dependency : DependencyDescriptor}
    (hlinks : ∀ p ∈ links.diagnostics, p.diagnostic.code = MADS003)
    (h : linkDependency providers ambiguousTypes coveredMissing provider links dependency =
      .ok after) :
    ∀ p ∈ after.diagnostics, p.diagnostic.code = MADS003 := by
  unfold linkDependency at h
  by_cases hambiguous : dependency.typeId ∈ ambiguousTypes
  · rw [if_pos hambiguous] at h
    exact Except.ok.inj h ▸ hlinks
  rw [if_neg hambiguous] at h
  by_cases hany : providers.any (fun candidate => candidate.typeId = dependency.typeId) = true
  · rw [if_pos hany] at h
    exact Except.ok.inj h ▸ hlinks
  rw [if_neg hany] at h
  by_cases hcovered : dependency.typeId ∉ coveredMissing
  · rw [if_pos hcovered] at h
    obtain ⟨missing, hmissing, hafter⟩ := Run.bind_eq_ok.mp h
    obtain ⟨location, -, hmissing⟩ := Run.bind_eq_ok.mp hmissing
    intro p hp
    rw [← Except.ok.inj hafter] at hp
    rcases List.mem_append.mp hp with hp | hp
    · exact hlinks p hp
    · rw [List.mem_singleton.mp hp, ← Except.ok.inj hmissing]
  · rw [if_neg hcovered] at h
    exact Except.ok.inj h ▸ hlinks

theorem linkProviders_codes {providers ps : List ProviderNode} {ambiguousTypes coveredMissing :
    List TypeId} {links : Links}
    (h : ps.foldlM (linkProvider providers ambiguousTypes coveredMissing) {} = .ok links) :
    ∀ p ∈ links.diagnostics, p.diagnostic.code = MADS003 := by
  apply Run.foldlM_invariant (P := fun links : Links =>
    ∀ p ∈ links.diagnostics, p.diagnostic.code = MADS003) _ (by simp) h
  intro before hbefore provider _ after hstep
  unfold linkProvider at hstep
  by_cases hstate : provider.state ≠ .planned
  · rw [if_pos hstate] at hstep
    exact Except.ok.inj hstep ▸ hbefore
  · rw [if_neg hstate] at hstep
    apply Run.foldlM_invariant (P := fun links : Links =>
      ∀ p ∈ links.diagnostics, p.diagnostic.code = MADS003) _ hbefore hstep
    intro _ hlinks _ _ _ hlink
    exact linkDependency_codes hlinks hlink

/-- Cycles are reported only where nothing else is. -/
theorem addCycles_cases {graph : ApplicationGraph} {found pending : List PendingDiagnostic}
    (h : addCycles graph found = .ok pending) :
    pending = found ∨ found = [] ∧ ∀ p ∈ pending, p.diagnostic.code = MADS005 := by
  unfold addCycles at h
  by_cases hempty : found.isEmpty = true
  · rw [if_pos hempty] at h
    obtain ⟨cycles, -, hmap⟩ := Run.bind_eq_ok.mp h
    refine .inr ⟨List.isEmpty_iff.mp hempty, fun p hp => ?_⟩
    obtain ⟨cycle, -, hcycle⟩ := (Run.ok_of_mapM hmap).2 p hp
    obtain ⟨subject, -, hp⟩ := Run.bind_eq_ok.mp hcycle
    rw [← Except.ok.inj hp]
  · rw [if_neg hempty] at h
    exact .inl (Except.ok.inj h).symm

/-- The passes before planning, read backwards. -/
theorem diagnose_eq_ok {descriptors unique : List ProviderDescriptor}
    {satisfied : List SatisfiedProvider} {coveredMissing : List TypeId} {graph : ApplicationGraph}
    {diagnostics : List Diagnostic}
    (h : diagnose descriptors satisfied coveredMissing = .ok (graph, diagnostics, unique)) :
    unique = (group descriptors).unique ∧ ∃ (links : Links) (pending : List PendingDiagnostic),
      (∀ p ∈ links.diagnostics, p.diagnostic.code = MADS003) ∧
      addCycles graph ((group descriptors).diagnostics ++ (ambiguities unique).1 ++
        links.diagnostics) = .ok pending ∧
      diagnostics = (sortBy PendingDiagnostic.order pending).map (·.diagnostic) := by
  unfold diagnose at h
  obtain ⟨links, hlinks, h⟩ := Run.bind_eq_ok.mp h
  obtain ⟨pending, hpending, h⟩ := Run.bind_eq_ok.mp h
  simp only [Run.pure_eq_ok, Except.ok.injEq, Prod.mk.injEq] at h
  obtain ⟨rfl, rfl, rfl⟩ := h
  exact ⟨rfl, links, pending, linkProviders_codes hlinks, hpending, rfl⟩

/-- The diagnostics of one code, in any order. -/
def ofCode (code : DiagnosticCode) (diagnostics : List Diagnostic) : List Diagnostic :=
  diagnostics.filter (fun d => d.code = code)

theorem ofCode_append (code : DiagnosticCode) (front back : List Diagnostic) :
    ofCode code (front ++ back) = ofCode code front ++ ofCode code back :=
  List.filter_append ..

theorem ofCode_eq_self {code : DiagnosticCode} {pending : List PendingDiagnostic}
    (h : ∀ p ∈ pending, p.diagnostic.code = code) :
    ofCode code (pending.map (·.diagnostic)) = pending.map (·.diagnostic) := by
  apply List.filter_eq_self.mpr
  intro d hd
  obtain ⟨p, hp, rfl⟩ := List.mem_map.mp hd
  exact decide_eq_true (h p hp)

theorem ofCode_eq_nil {code other : DiagnosticCode} {pending : List PendingDiagnostic}
    (h : ∀ p ∈ pending, p.diagnostic.code = other) (hne : other ≠ code) :
    ofCode code (pending.map (·.diagnostic)) = [] := by
  apply List.filter_eq_nil_iff.mpr
  intro d hd
  obtain ⟨p, hp, rfl⟩ := List.mem_map.mp hd
  rw [h p hp, decide_eq_true_eq]
  exact hne

/-- The diagnostics for repeated and for ambiguous declarations are those of the first two
passes. -/
theorem ofCode_diagnose {descriptors unique : List ProviderDescriptor}
    {satisfied : List SatisfiedProvider} {coveredMissing : List TypeId} {graph : ApplicationGraph}
    {diagnostics : List Diagnostic}
    (h : diagnose descriptors satisfied coveredMissing = .ok (graph, diagnostics, unique)) :
    (ofCode MADS001 diagnostics).Perm
        ((group descriptors).diagnostics.map (·.diagnostic)) ∧
      (ofCode MADS002 diagnostics).Perm ((ambiguities unique).1.map (·.diagnostic)) := by
  obtain ⟨-, links, pending, hlinks, hpending, hsorted⟩ := diagnose_eq_ok h
  have hgroup : ∀ p ∈ (group descriptors).diagnostics, p.diagnostic.code = MADS001 := by
    rw [(group_counts descriptors).reports]
    intro p hp
    obtain ⟨d, -, rfl⟩ := List.mem_map.mp hp
    rfl
  have hambiguous : ∀ p ∈ (ambiguities unique).1, p.diagnostic.code = MADS002 := by
    obtain ⟨reported, hreported⟩ := ambiguities_ambiguous unique
    rw [hreported.reports]
    intro p hp
    obtain ⟨d, -, rfl⟩ := List.mem_map.mp hp
    rfl
  have hperm : diagnostics.Perm (pending.map (·.diagnostic)) := by
    rw [hsorted]
    exact (sortBy_perm _ _).map _
  have hcode : ∀ code, (ofCode code diagnostics).Perm (ofCode code (pending.map (·.diagnostic))) :=
    fun code => hperm.filter _
  rcases addCycles_cases hpending with hpending | ⟨hnone, hcycles⟩
  · refine ⟨(hcode MADS001).trans (.of_eq ?_), (hcode MADS002).trans (.of_eq ?_)⟩
    · rw [hpending, List.map_append, List.map_append, ofCode_append, ofCode_append,
        ofCode_eq_self hgroup, ofCode_eq_nil hambiguous (by decide), ofCode_eq_nil hlinks (by decide),
        List.append_nil, List.append_nil]
    · rw [hpending, List.map_append, List.map_append, ofCode_append, ofCode_append,
        ofCode_eq_nil hgroup (by decide), ofCode_eq_self hambiguous, ofCode_eq_nil hlinks (by decide),
        List.nil_append, List.append_nil]
  · obtain ⟨hfound, -⟩ := List.append_eq_nil_iff.mp hnone
    obtain ⟨hgroupNil, hambiguousNil⟩ := List.append_eq_nil_iff.mp hfound
    refine ⟨(hcode MADS001).trans (.of_eq ?_), (hcode MADS002).trans (.of_eq ?_)⟩
    · rw [ofCode_eq_nil hcycles (by decide), hgroupNil, List.map_nil]
    · rw [ofCode_eq_nil hcycles (by decide), hambiguousNil, List.map_nil]

/-! ### The functions that a build calls do not matter -/

/-- What the first pass collects, without the functions that a build calls. -/
def Grouping.metadata (g : Grouping) : Grouping where
  diagnostics := g.diagnostics
  unique := g.unique.map (·.metadata)
  duplicates := g.duplicates.map (·.metadata)

theorem Grouping.add_metadata (g : Grouping) (d : ProviderDescriptor) :
    g.metadata.add d.metadata = (g.add d).metadata := by
  have hfind : g.metadata.unique.find? (fun unique => exactIdentity unique d.metadata) =
      (g.unique.find? (fun unique => exactIdentity unique d)).map (·.metadata) :=
    List.find?_map ..
  unfold Grouping.add
  rw [hfind]
  cases g.unique.find? (fun unique => exactIdentity unique d) with
  | none => simp [Grouping.metadata]
  | some existing =>
    have hany : g.metadata.duplicates.any (fun e => exactIdentity e existing.metadata) =
        g.duplicates.any (fun e => exactIdentity e existing) := List.any_map ..
    simp only [Option.map_some, hany]
    by_cases hreported : g.duplicates.any (fun e => exactIdentity e existing) = true
    · rw [if_pos hreported, if_pos hreported]
    · rw [if_neg hreported, if_neg hreported]
      simp only [Grouping.metadata, List.map_append, List.map_singleton]
      rfl

theorem group_metadata (descriptors : List ProviderDescriptor) :
    group (descriptors.map (·.metadata)) = (group descriptors).metadata := by
  have hfold : ∀ (rest : List ProviderDescriptor) (g : Grouping),
      (rest.map (·.metadata)).foldl Grouping.add g.metadata =
        (rest.foldl Grouping.add g).metadata := by
    intro rest
    induction rest with
    | nil => exact fun g => rfl
    | cons d rest ih =>
      intro g
      rw [List.map_cons, List.foldl_cons, List.foldl_cons, g.add_metadata, ih]
  have hsort : sortBy descriptorOrder (descriptors.map (·.metadata)) =
      (sortBy descriptorOrder descriptors).map (·.metadata) := sortBy_map (fun _ _ => rfl) _
  unfold group
  rw [hsort]
  exact hfold _ {}

theorem sameType_metadata (unique : List ProviderDescriptor) (typeId : TypeId) :
    sameType (unique.map (·.metadata)) typeId = (sameType unique typeId).map (·.metadata) :=
  List.filter_map ..

theorem addAmbiguity_metadata (unique : List ProviderDescriptor)
    (found : List PendingDiagnostic × List TypeId) (d : ProviderDescriptor) :
    addAmbiguity (unique.map (·.metadata)) found d.metadata = addAmbiguity unique found d := by
  unfold addAmbiguity
  have htype : d.metadata.typeId = d.typeId := rfl
  rw [sameType_metadata, htype]
  cases sameType unique d.typeId with
  | nil => rfl
  | cons first rest =>
    cases rest with
    | nil => rfl
    | cons second rest => rfl

theorem ambiguities_metadata (unique : List ProviderDescriptor) :
    ambiguities (unique.map (·.metadata)) = ambiguities unique := by
  unfold ambiguities
  rw [List.foldl_map]
  congr 1
  funext found d
  exact addAmbiguity_metadata unique found d

theorem nodes_metadata (unique : List ProviderDescriptor) (ambiguousTypes : List TypeId)
    (satisfied : List SatisfiedProvider) :
    nodes (unique.map (·.metadata)) ambiguousTypes satisfied =
      nodes unique ambiguousTypes satisfied := by
  have hsatisfied : satisfiedNode (unique.map (·.metadata)) = satisfiedNode unique := by
    funext s
    have hfind : (unique.map (·.metadata)).find? (fun descriptor => descriptor.typeId = s.typeId) =
        (unique.find? (fun descriptor => descriptor.typeId = s.typeId)).map (·.metadata) :=
      List.find?_map ..
    unfold satisfiedNode
    rw [hfind]
    cases unique.find? (fun descriptor => descriptor.typeId = s.typeId) with
    | none => rfl
    | some d => cases s.state <;> rfl
  have hplanned : (unique.map (·.metadata)).map plannedNode = unique.map plannedNode :=
    List.map_map ..
  unfold nodes
  rw [hsatisfied, hplanned]

theorem diagnose_metadata (descriptors : List ProviderDescriptor)
    (satisfied : List SatisfiedProvider) (coveredMissing : List TypeId) :
    diagnose (descriptors.map (·.metadata)) satisfied coveredMissing =
      (diagnose descriptors satisfied coveredMissing >>= fun (graph, diagnostics, unique) =>
        .ok (graph, diagnostics, unique.map (·.metadata))) := by
  unfold diagnose
  rw [group_metadata]
  simp only [Grouping.metadata, ambiguities_metadata, nodes_metadata, bind_assoc, pure_bind]
  rfl

/-! ### Any order of the declarations -/

/-- Declarations that are not identical differ in type name, kind or location. -/
def Separated (descriptors : List ProviderDescriptor) : Prop :=
  ∀ d ∈ descriptors, ∀ e ∈ descriptors, ¬ d.Identical e →
    ¬ (d.typeName = e.typeName ∧ d.kind = e.kind ∧ d.location = e.location)

theorem Separated.identical {descriptors : List ProviderDescriptor} (h : Separated descriptors)
    {d e : ProviderDescriptor} (hd : d ∈ descriptors) (he : e ∈ descriptors)
    (horder : descriptorOrder d e = .eq) : d.Identical e := by
  by_contra hne
  exact h d hd e he hne (descriptorOrder_eq_eq.mp horder)

theorem group_perm {descriptors permuted : List ProviderDescriptor}
    (hperm : descriptors.Perm permuted) (h : Separated descriptors) :
    group (descriptors.map (·.metadata)) = group (permuted.map (·.metadata)) := by
  unfold group
  congr 1
  apply sortBy_eq_of_perm descriptorOrder (hperm.map _)
  intro x hx y hy horder
  obtain ⟨d, hd, rfl⟩ := List.mem_map.mp hx
  obtain ⟨e, he, rfl⟩ := List.mem_map.mp hy
  exact h.identical hd he horder

/-- Up to the functions that a build calls, the passes before planning do not see the order. -/
theorem diagnose_perm {descriptors permuted : List ProviderDescriptor}
    (hperm : descriptors.Perm permuted) (h : Separated descriptors)
    (satisfied : List SatisfiedProvider) (coveredMissing : List TypeId) :
    diagnose (descriptors.map (·.metadata)) satisfied coveredMissing =
      diagnose (permuted.map (·.metadata)) satisfied coveredMissing := by
  unfold diagnose
  rw [group_perm hperm h]

/-- Where nothing is reported, the kept declarations are the sorted ones, whatever their order
was. -/
theorem Diagnosed.unique_perm {descriptors permuted unique unique' : List ProviderDescriptor}
    {satisfied : List SatisfiedProvider} {coveredMissing : List TypeId} {graph : ApplicationGraph}
    (h : Diagnosed descriptors satisfied coveredMissing graph [] unique)
    (h' : Diagnosed permuted satisfied coveredMissing graph [] unique')
    (hperm : descriptors.Perm permuted) (hseparated : Separated descriptors) :
    unique = unique' := by
  have hsorted : unique = sortBy descriptorOrder descriptors := by
    rw [h.unique_eq]
    exact ((group_after descriptors).complete (h.clean rfl).1).2
  have hsorted' : unique' = sortBy descriptorOrder permuted := by
    rw [h'.unique_eq]
    exact ((group_after permuted).complete (h'.clean rfl).1).2
  obtain ⟨hkept, hnodup, -⟩ := h.distinct
  rw [hsorted, hsorted']
  apply sortBy_eq_of_perm descriptorOrder hperm
  intro d hd e he horder
  have htype : d.typeId = e.typeId :=
    congrArg Identity.typeId (hseparated.identical hd he horder).identity_eq
  exact List.inj_on_of_nodup_map hnodup (hkept.mem_iff.mpr hd) (hkept.mem_iff.mpr he) htype

end Analysis

/-! ### The analysis -/

open Analysis

/-- How often a declaration with the identity of `descriptor` is registered. -/
def occurrences (descriptors : List ProviderDescriptor) (descriptor : ProviderDescriptor) : ℕ :=
  descriptors.countP (fun other => exactIdentity other descriptor)

theorem occurrences_eq_count (descriptors : List ProviderDescriptor) (d : ProviderDescriptor) :
    occurrences descriptors d = (descriptors.map (·.identity)).count d.identity := by
  rw [List.count_eq_countP, List.countP_map]
  apply List.countP_congr
  intro other _
  simp [exactIdentity_iff]

/-- Each identity that occurs more than once has one report, that of its first declaration, and
there are no other reports of repetitions. -/
structure ReportsRepeated (descriptors : List ProviderDescriptor)
    (diagnostics : List Diagnostic) (reported : List ProviderDescriptor) : Prop where
  reports : (ofCode MADS001 diagnostics).Perm
    (reported.map (fun d => (PendingDiagnostic.duplicate d).diagnostic))
  registered : reported ⊆ descriptors
  distinct : reported.Pairwise (fun d e => exactIdentity d e = false)
  repeated : ∀ d ∈ descriptors,
    (∃ r ∈ reported, exactIdentity r d = true) ↔ 1 < occurrences descriptors d

/-- Each type that declarations of two identities produce has one report, and there are no other
reports of ambiguities. -/
structure ReportsAmbiguous (descriptors : List ProviderDescriptor)
    (diagnostics : List Diagnostic) (reported : List ProviderDescriptor) : Prop where
  reports : (ofCode MADS002 diagnostics).Perm
    (reported.map (fun d => (PendingDiagnostic.ambiguous d).diagnostic))
  registered : reported ⊆ descriptors
  distinct : (reported.map (·.typeId)).Nodup
  ambiguous : ∀ t, t ∈ reported.map (·.typeId) ↔ ∃ d ∈ descriptors, ∃ e ∈ descriptors,
    d.typeId = t ∧ e.typeId = t ∧ exactIdentity d e = false

theorem exactIdentity_eq_false {left right : ProviderDescriptor} :
    exactIdentity left right = false ↔ left.identity ≠ right.identity := by
  rw [← Bool.not_eq_true, exactIdentity_iff]

theorem reportsRepeated {descriptors unique : List ProviderDescriptor}
    {satisfied : List SatisfiedProvider} {coveredMissing : List TypeId} {graph : ApplicationGraph}
    {diagnostics : List Diagnostic}
    (h : diagnose descriptors satisfied coveredMissing = .ok (graph, diagnostics, unique)) :
    ReportsRepeated descriptors diagnostics (group descriptors).duplicates := by
  have hcounts := group_counts descriptors
  have hsort := sortBy_perm descriptorOrder descriptors
  refine ⟨?_, fun d hd => hsort.mem_iff.mp (hcounts.mem_duplicates d hd), ?_, fun d hd => ?_⟩
  · have hreports := (ofCode_diagnose h).1
    rwa [hcounts.reports, List.map_map] at hreports
  · have honce := List.pairwise_map.mp hcounts.once
    exact honce.imp (fun hne => exactIdentity_eq_false.mpr hne)
  · have hcount : (descriptors.map (·.identity)).count d.identity =
        ((sortBy descriptorOrder descriptors).map (·.identity)).count d.identity :=
      ((hsort.map _).count_eq _).symm
    rw [occurrences_eq_count, hcount, ← hcounts.repeated, List.mem_map]
    simp only [exactIdentity_iff]

theorem reportsAmbiguous {descriptors unique : List ProviderDescriptor}
    {satisfied : List SatisfiedProvider} {coveredMissing : List TypeId} {graph : ApplicationGraph}
    {diagnostics : List Diagnostic}
    (h : diagnose descriptors satisfied coveredMissing = .ok (graph, diagnostics, unique)) :
    ∃ reported, ReportsAmbiguous descriptors diagnostics reported := by
  have hcounts := group_counts descriptors
  have hsort := sortBy_perm descriptorOrder descriptors
  obtain ⟨rfl, -⟩ := diagnose_eq_ok h
  obtain ⟨reported, hreported⟩ := ambiguities_ambiguous (group descriptors).unique
  have hidentities : ∀ i, i ∈ (group descriptors).unique.map (·.identity) ↔
      i ∈ descriptors.map (·.identity) := by
    intro i
    rw [hcounts.identities, (hsort.map _).mem_iff]
  refine ⟨reported, ?_, fun d hd => ?_, hreported.once, fun t => ?_⟩
  · have hreports := (ofCode_diagnose h).2
    rwa [hreported.reports, List.map_map] at hreports
  · exact hsort.mem_iff.mp (hcounts.mem_unique d (hreported.mem_unique d hd))
  · simp only [exactIdentity_eq_false]
    rw [hreported.several, ← several_iff hcounts.nodup hidentities]
    refine ⟨And.right, fun hmany => ⟨?_, hmany⟩⟩
    obtain ⟨u, hu⟩ := List.exists_mem_of_length_pos
      (show 0 < (sameType (group descriptors).unique t).length by omega)
    obtain ⟨hu, htype⟩ := List.mem_filter.mp hu
    exact List.mem_map.mpr ⟨u, hu, of_decide_eq_true htype⟩

/-- An analysis reports each identity that occurs more than once and each type of several
identities exactly once. Where declarations that are not identical differ in type name, kind or
location, the order of the declarations changes nothing in its result. -/
theorem analyzeParts_permuted {descriptors permuted : List ProviderDescriptor}
    (hseparated : Separated descriptors) (hperm : descriptors.Perm permuted)
    (satisfied : List SatisfiedProvider) (coveredMissing : List TypeId) :
    ∃ analysis, analyzeParts descriptors satisfied coveredMissing = .ok analysis ∧
      analyzeParts permuted satisfied coveredMissing = .ok analysis ∧
      (∃ reported, ReportsRepeated descriptors analysis.diagnostics reported) ∧
      ∃ reported, ReportsAmbiguous descriptors analysis.diagnostics reported := by
  obtain ⟨graph, diagnostics, unique, hdiagnose, hdiagnosed⟩ :=
    diagnose_ok descriptors satisfied coveredMissing
  obtain ⟨graph', diagnostics', unique', hdiagnose', hdiagnosed'⟩ :=
    diagnose_ok permuted satisfied coveredMissing
  have hsame := diagnose_perm hperm hseparated satisfied coveredMissing
  rw [diagnose_metadata, diagnose_metadata, hdiagnose, hdiagnose'] at hsame
  simp only [Run.ok_bind, Except.ok.injEq, Prod.mk.injEq] at hsame
  obtain ⟨rfl, rfl, -⟩ := hsame
  have hrepeated := reportsRepeated hdiagnose
  have hambiguous := reportsAmbiguous hdiagnose
  by_cases hempty : diagnostics = []
  · subst hempty
    obtain rfl := hdiagnosed.unique_perm hdiagnosed' hperm hseparated
    obtain ⟨plan, hcreate, -⟩ := hdiagnosed.plan
    exact ⟨⟨graph, [], some plan, [], none⟩, by simp [analyzeParts, hdiagnose, hcreate],
      by simp [analyzeParts, hdiagnose', hcreate], ⟨_, hrepeated⟩, hambiguous⟩
  · exact ⟨⟨graph, diagnostics, none, [], none⟩, by simp [analyzeParts, hdiagnose, hempty],
      by simp [analyzeParts, hdiagnose', hempty], ⟨_, hrepeated⟩, hambiguous⟩

/-- A clock that is registered twice, and two declarations that both produce a store. -/
def sampleDeclarations : List ProviderDescriptor :=
  let clock : ProviderDescriptor :=
    { kind := .service, typeName := "Clock", typeId := ⟨1⟩, dependencies := [],
      visibility := .public_, location := ⟨"clock.rs", 3, 1⟩, constructor_ := 10 }
  let store : ProviderDescriptor :=
    { kind := .repository, typeName := "Store", typeId := ⟨2⟩, dependencies := [⟨"Clock", ⟨1⟩⟩],
      visibility := .public_, location := ⟨"store.rs", 7, 1⟩, constructor_ := 20 }
  [store, clock, { store with kind := .provider, constructor_ := 30 },
    { clock with constructor_ := 11 }]

theorem analyzeParts_permuted_sample : ∃ analysis,
    analyzeParts sampleDeclarations [] [] = .ok analysis ∧
      analyzeParts sampleDeclarations.reverse [] [] = .ok analysis ∧
      (∃ reported, ReportsRepeated sampleDeclarations analysis.diagnostics reported) ∧
      ∃ reported, ReportsAmbiguous sampleDeclarations analysis.diagnostics reported :=
  analyzeParts_permuted (by unfold Separated; decide) (List.reverse_perm _).symm [] []

end Mads
