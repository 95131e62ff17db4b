import Mads.Core.Graph

/-!
# Auto-configuration

Evaluators are functions of the context they are given. The configuration is of an arbitrary type,
since only evaluators and constructors look inside it.
-/

namespace Mads

/-! ### Evaluations -/

/-- The text a report may show for an evaluation. -/
def safeExplanation (reasonCode : AutoConfigurationReasonCode) (explanation : String) : String :=
  if explanation = "Database is required and configured" then
    "Database is required and configured"
  else if explanation =
      "Database is required and configured with startup migrations disabled" then
    "Database is required and configured with startup migrations disabled"
  else match reasonCode.value with
    | "conditions_matched" => "Auto-configuration conditions matched"
    | "requirement_absent" => "No provider requires this auto-configuration"
    | "user_override" => "An application provider overrides this auto-configuration"
    | "missing_configuration" => "Required configuration is missing"
    | "invalid_configuration" => "Required configuration is invalid"
    | "missing_migration_source" => "A required migration source is missing"
    | "provisioning_failed" => "Auto-configuration provisioning failed"
    | "duplicate_identifier" => "An auto-configuration identifier is duplicated"
    | "conflicting_default" => "Auto-configuration defaults conflict"
    | _ => "<redacted>"

/-- The result of evaluating one descriptor. A failure comes with its error and nothing else
does. -/
structure AutoConfigurationEvaluation where
  status : AutoConfigurationStatus
  reasonCode : AutoConfigurationReasonCode
  explanation : String
  requirements : List AutoConfigurationRequirement
  configuration : List AutoConfigurationConfigEvidence
  failure : Option Error
  failure_iff : failure.isSome ↔ status = .failed
  deriving DecidableEq

namespace AutoConfigurationEvaluation

variable (reasonCode : AutoConfigurationReasonCode) (explanation : String)
  (requirements : List AutoConfigurationRequirement)
  (configuration : List AutoConfigurationConfigEvidence)

def active : AutoConfigurationEvaluation :=
  ⟨.active, reasonCode, explanation, requirements, configuration, none, by simp⟩

def skipped : AutoConfigurationEvaluation :=
  ⟨.skipped, reasonCode, explanation, requirements, configuration, none, by simp⟩

def overridden : AutoConfigurationEvaluation :=
  ⟨.overridden, reasonCode, explanation, requirements, configuration, none, by simp⟩

def failed (error : Error) : AutoConfigurationEvaluation :=
  ⟨.failed, reasonCode, explanation, requirements, configuration, some error, by simp⟩

def replaceFailure (evaluation : AutoConfigurationEvaluation)
    (reasonCode : AutoConfigurationReasonCode) (explanation : String) (error : Error) :
    AutoConfigurationEvaluation :=
  failed reasonCode explanation evaluation.requirements evaluation.configuration error

end AutoConfigurationEvaluation

/-! ### Descriptors and contexts -/

/-- Private inputs of official integrations, by identifier and type. -/
structure AutoConfigurationInputs where
  values : List ((String × TypeId) × AnyValue) := []
  keys_nodup : (values.map Prod.fst).Nodup := by simp
  deriving DecidableEq

namespace AutoConfigurationInputs

/-- Stores an input unless there is one under its key, and tells whether it did. -/
def insert (inputs : AutoConfigurationInputs) (identifier : String) (value : AnyValue) :
    AutoConfigurationInputs × Bool :=
  if h : (identifier, value.typeId) ∈ inputs.values.map Prod.fst then (inputs, false)
  else
    ({ values := inputs.values ++ [((identifier, value.typeId), value)]
       keys_nodup := by
        rw [List.map_append, List.map_singleton, ← List.concat_eq_append]
        exact inputs.keys_nodup.concat h }, true)

def get (inputs : AutoConfigurationInputs) (identifier : String) (typeId : TypeId) :
    Option AnyValue :=
  (inputs.values.lookup (identifier, typeId)).filter (fun value => value.typeId = typeId)

end AutoConfigurationInputs

/-- Read-only state available to an evaluator. -/
structure AutoConfigurationContext (Config : Type) where
  identifier : String
  config : Config
  providers : List ProviderDescriptor
  satisfied : List SatisfiedProvider
  inputs : AutoConfigurationInputs
  moduleGraph : Option ModuleGraph

/-- An official integration. What its applier returns belongs to the environment of a build. -/
structure AutoConfigurationDescriptor (Config : Type) where
  identifier : String
  outputTypeName : String
  outputTypeId : TypeId
  location : SourceLocation
  evaluator : AutoConfigurationContext Config → AutoConfigurationEvaluation
  applier : FnPtr

variable {Config : Type}

namespace AutoConfigurationContext

variable (context : AutoConfigurationContext Config)

/-- The private input of the integration that has a type. -/
def input (typeId : TypeId) : Option AnyValue := context.inputs.get context.identifier typeId

/-- Whether an application-controlled provider owns a type. -/
def hasProvider (typeId : TypeId) (typeName : String) : Bool :=
  context.satisfied.any (fun provider => provider.typeId = typeId) ||
    context.providers.any (fun provider =>
      provider.typeId = typeId || provider.runtimeTypeName = some typeName)

def requirementOrder (left right : AutoConfigurationRequirement) : Ordering :=
  (compareOn (·.providerTypeName) left right).then
    (optionLocationOrder left.location right.location)

/-- The declarations that directly depend on a type. -/
def requirements (typeId : TypeId) : List AutoConfigurationRequirement :=
  sortBy requirementOrder
    ((context.providers.filter (fun provider =>
      provider.dependencies.any (fun dependency => dependency.typeId = typeId))).map
        (fun provider => ⟨provider.typeName, some provider.location⟩))

end AutoConfigurationContext

namespace AutoConfiguration

def descriptorOrder : AutoConfigurationDescriptor Config →
    AutoConfigurationDescriptor Config → Ordering :=
  compareLex (compareLex (compareOn (·.identifier)) (compareOn (·.outputTypeName)))
    (fun left right => locationOrder left.location right.location)

/-- The registered integrations in a fixed order. -/
def descriptors (registered : List (AutoConfigurationDescriptor Config)) :
    List (AutoConfigurationDescriptor Config) :=
  sortBy descriptorOrder registered

/-! ### Decisions -/

structure Decision (Config : Type) where
  descriptor : AutoConfigurationDescriptor Config
  evaluation : AutoConfigurationEvaluation
  hasDirectRequirement : Bool
  emitDiagnostic : Bool

namespace Decision

variable (decision : Decision Config)

def isActive : Bool := decision.evaluation.status = .active

def isFailed : Bool := decision.evaluation.status = .failed

def report : AutoConfigurationReport where
  identifier := decision.descriptor.identifier
  outputTypeName := decision.descriptor.outputTypeName
  status := decision.evaluation.status
  reasonCode := decision.evaluation.reasonCode
  explanation := safeExplanation decision.evaluation.reasonCode decision.evaluation.explanation
  requirements := decision.evaluation.requirements
  configuration := decision.evaluation.configuration

end Decision

def hasDirectRequirement (descriptor : AutoConfigurationDescriptor Config)
    (providers : List ProviderDescriptor) : Bool :=
  providers.any (fun provider =>
    provider.dependencies.any (fun dependency => dependency.typeId = descriptor.outputTypeId))

def duplicateIdentifierDiagnostic (descriptor : AutoConfigurationDescriptor Config) :
    Diagnostic where
  code := MADS007
  title := "duplicate auto-configuration identifier"
  message := "multiple official auto-configurations use the same stable identifier"
  subject := some descriptor.identifier
  location := some descriptor.location
  suggestions := ["use a unique official auto-configuration identifier"]

def conflictingDefaultDiagnostic (descriptor : AutoConfigurationDescriptor Config) :
    Diagnostic where
  code := MADS007
  title := "conflicting auto-configuration defaults"
  message := "multiple official auto-configurations selected the same output type"
  subject := some descriptor.outputTypeName
  location := some descriptor.location
  suggestions := ["remove one conflicting official auto-configuration"]

/-- What the evaluator of a descriptor is given. -/
def contextFor (config : Config) (inputs : AutoConfigurationInputs)
    (moduleGraph : Option ModuleGraph) (providers : List ProviderDescriptor)
    (satisfied : List SatisfiedProvider) (descriptor : AutoConfigurationDescriptor Config) :
    AutoConfigurationContext Config :=
  ⟨descriptor.identifier, config, providers, satisfied, inputs, moduleGraph⟩

/-- Decides the descriptors of one identifier. Only a single one is evaluated. -/
def decideGroup (config : Config) (inputs : AutoConfigurationInputs)
    (moduleGraph : Option ModuleGraph) (providers : List ProviderDescriptor)
    (satisfied : List SatisfiedProvider) (group : List (AutoConfigurationDescriptor Config)) :
    List (Decision Config) :=
  match group with
  | [] => []
  | [descriptor] =>
    [{ descriptor
       evaluation := descriptor.evaluator
         (contextFor config inputs moduleGraph providers satisfied descriptor)
       hasDirectRequirement := hasDirectRequirement descriptor providers
       emitDiagnostic := true }]
  | first :: _ :: _ => group.mapIdx fun index descriptor =>
    { descriptor
      evaluation := .failed ⟨"duplicate_identifier"⟩
        "an auto-configuration identifier is duplicated" [] []
        (Error.fromDiagnostics (duplicateIdentifierDiagnostic first) [])
      hasDirectRequirement := hasDirectRequirement descriptor providers
      emitDiagnostic := index = 0 }

/-- The positions of the active decisions with an output type. -/
def conflicts (decisions : List (Decision Config)) (outputTypeId : TypeId) : List ℕ :=
  (decisions.zipIdx.filter (fun (candidate, _) => candidate.isActive &&
    candidate.descriptor.outputTypeId = outputTypeId)).map Prod.snd

/-- The decision at `index` once those at `conflicts` have failed with `decision`'s diagnostic. Only
the first of them emits it. -/
def failConflict (conflicts : List ℕ) (decision : Decision Config)
    (candidate : Decision Config) (index : ℕ) : Decision Config :=
  if index ∈ conflicts then
    { candidate with
      evaluation := candidate.evaluation.replaceFailure ⟨"conflicting_default"⟩
        "multiple auto-configuration defaults conflict"
        (Error.fromDiagnostics (conflictingDefaultDiagnostic decision.descriptor) [])
      emitDiagnostic := conflicts.head? = some index }
  else candidate

/-- Fails the active decision at `index` and all later ones with the same output, where there are
any. -/
def resolveConflict (decisions : List (Decision Config)) (index : ℕ) :
    List (Decision Config) :=
  match decisions[index]? with
  | none => decisions
  | some decision =>
    if !decision.isActive then decisions
    else
      let conflicts := conflicts decisions decision.descriptor.outputTypeId
      if conflicts.length < 2 ∨ conflicts.head? ≠ some index then decisions
      else decisions.mapIdx fun index candidate => failConflict conflicts decision candidate index

/-- The types of failed integrations that some provider requires. -/
def coveredMissing (decisions : List (Decision Config)) : List TypeId :=
  let outputs := (decisions.filter (fun d => d.isFailed && d.hasDirectRequirement)).map
    (fun d => (d.descriptor.outputTypeName, d.descriptor.outputTypeId))
  (sortBy (compareOn Prod.fst) outputs).foldl
    (fun seen output => if output.2 ∈ seen then seen else seen ++ [output.2]) []

/-- The decisions of one evaluation pass. -/
def decide (registered : List (AutoConfigurationDescriptor Config))
    (providers : List ProviderDescriptor) (satisfied : List SatisfiedProvider) (config : Config)
    (inputs : AutoConfigurationInputs) (moduleGraph : Option ModuleGraph) : List (Decision Config) :=
  let groups := (sortBy descriptorOrder registered).splitBy
    (fun left right => left.identifier = right.identifier)
  let decisions := groups.flatMap
    (decideGroup config inputs moduleGraph providers satisfied)
  (List.range decisions.length).foldl resolveConflict decisions

/-- The results of one evaluation pass. -/
structure Analysis (Config : Type) where
  reports : List AutoConfigurationReport
  diagnostics : List Diagnostic
  failure : Option Error
  virtualSatisfied : List SatisfiedProvider
  coveredMissing : List TypeId
  selected : List (AutoConfigurationDescriptor Config)

def selectedOf (decisions : List (Decision Config)) :
    List (AutoConfigurationDescriptor Config) :=
  (decisions.filter Decision.isActive).map (·.descriptor)

def diagnosticsOf (decisions : List (Decision Config)) : List Diagnostic :=
  ((decisions.filter (·.emitDiagnostic)).filterMap (·.evaluation.failure)).map (·.primary)

def analyzeParts (registered : List (AutoConfigurationDescriptor Config))
    (providers : List ProviderDescriptor) (satisfied : List SatisfiedProvider) (config : Config)
    (inputs : AutoConfigurationInputs) (moduleGraph : Option ModuleGraph) : Analysis Config :=
  let decisions := decide registered providers satisfied config inputs moduleGraph
  { reports := decisions.map Decision.report
    diagnostics := diagnosticsOf decisions
    failure := decisions.findSome? fun d =>
      if d.isFailed && d.evaluation.failure.any (·.source.isSome) then d.evaluation.failure
      else none
    virtualSatisfied := (selectedOf decisions).map
      (fun d => SatisfiedProvider.autoConfigured d.outputTypeId d.outputTypeName)
    coveredMissing := coveredMissing decisions
    selected := selectedOf decisions }

end AutoConfiguration

end Mads
