import Mathlib.Logic.Function.Basic
import Mads.Base
import Mads.Cli.Inspection
import Mads.Cli.Project
import Mads.Library.PathText

/-!
# Asking an application for an inspection

The request stands in five variables of the environment, which the command line sets and the
application reads when it starts.
-/

namespace Mads

open Paths

def MADS032 : DiagnosticCode := ⟨"MADS032"⟩

namespace Run

variable {ε α β : Type} {P : ε → Prop}

/-- The call returns a value or an error of a kind; it does not panic. -/
def FailsOnly (P : ε → Prop) (call : Run ε α) : Prop :=
  ∀ halt, call = .error halt → ∃ error, halt = .err error ∧ P error

theorem FailsOnly.ok (a : α) : FailsOnly P (.ok a : Run ε α) := fun _ h => by cases h

theorem FailsOnly.fail {error : ε} (h : P error) : FailsOnly P (Run.fail error : Run ε α) := by
  intro halt heq
  obtain rfl := Except.error.inj heq
  exact ⟨error, rfl, h⟩

theorem FailsOnly.ensure {condition : Prop} [Decidable condition] {error : ε} (h : P error) :
    FailsOnly P (Run.ensure condition error) := by
  unfold Run.ensure
  split
  · exact .ok ()
  · exact .fail h

theorem FailsOnly.okOr {value : Option α} {error : ε} (h : P error) :
    FailsOnly P (Run.okOr value error) := by
  cases value with
  | none => exact .fail h
  | some a => exact .ok a

theorem FailsOnly.bind {call : Run ε α} {rest : α → Run ε β} (h : FailsOnly P call)
    (hrest : ∀ a, call = .ok a → FailsOnly P (rest a)) : FailsOnly P (call >>= rest) := by
  cases call with
  | error halt => exact fun other heq => h other (by simpa using heq)
  | ok a => exact hrest a rfl

end Run

/-- What a request says, and under which key. -/
inductive RequestField where
  | version
  | kind
  | token
  | acknowledgement
  | response
  deriving DecidableEq, Repr

namespace RequestField

def all : List RequestField := [version, kind, token, acknowledgement, response]

def key : RequestField → String
  | version => "MADS_INTERNAL_INSPECTION_VERSION"
  | kind => "MADS_INTERNAL_INSPECTION_KIND"
  | token => "MADS_INTERNAL_INSPECTION_TOKEN"
  | acknowledgement => "MADS_INTERNAL_INSPECTION_ACK"
  | response => "MADS_INTERNAL_INSPECTION_RESPONSE"

def ofKey (key : Name) : Option RequestField := all.find? fun field => key = osStr field.key

theorem mem_all (field : RequestField) : field ∈ all := by cases field <;> decide

theorem key_injective : Function.Injective key := by
  intro field other h
  cases field <;> cases other <;> first | rfl | exact absurd h (by decide)

@[simp] theorem ofKey_eq_some {key : Name} {field : RequestField} :
    ofKey key = some field ↔ key = osStr field.key := by
  constructor
  · intro h
    simpa using List.find?_some h
  · rintro rfl
    cases hfound : ofKey (osStr field.key) with
    | none => exact absurd (List.find?_eq_none.mp hfound field (mem_all field)) (by simp)
    | some other =>
      have hkey : osStr field.key = osStr other.key := by simpa using List.find?_some hfound
      rw [key_injective (osStr_injective hkey)]

end RequestField

/-- What an application is asked to inspect, and where it answers. -/
structure InspectionRequest where
  kind : InspectionKind
  token : String
  ackPath : Name
  responsePath : Name
  deriving DecidableEq, Repr

namespace InspectionRequest

def inspectionError (message : String) : Error :=
  ⟨((⟨MADS032, "application inspection failed", message, none, none, []⟩ : Diagnostic).withSubject
    "private inspection request").withSuggestion
      "run the inspection through a matching MADS CLI version", [], none⟩

def unicodeField (value : Name) (field : String) : Run Error String :=
  Run.okOr (intoString value) (inspectionError s!"the private {field} must be valid Unicode")

/-- What was found under each key, and whether a key came twice. -/
structure Slots where
  value : RequestField → Option Name
  duplicate : Bool

def Slots.new : Slots := ⟨fun _ => none, false⟩

/-- The slot of a key has its last value. -/
def Slots.replace (slots : Slots) (entry : Name × Name) : Slots :=
  match RequestField.ofKey entry.1 with
  | none => slots
  | some field =>
    ⟨Function.update slots.value field (some entry.2),
      slots.duplicate || (slots.value field).isSome⟩

def readKind (name : String) : Run Error InspectionKind :=
  if name = "routes" then .ok .routes
  else if name = "graph" then .ok .graph
  else if name = "doctor" then .ok .doctor
  else Run.fail (inspectionError "the private inspection kind is invalid")

def unwrap {α : Type} (value : Option α) : Run Error α :=
  Run.expect value "called Option::unwrap() on a None value"

def fromValues (values : List (Name × Name)) : Run Error (Option InspectionRequest) :=
  let slots := values.foldl Slots.replace .new
  if !RequestField.all.any fun field => (slots.value field).isSome then .ok none
  else do
    Run.ensure
      (slots.duplicate = false ∧ RequestField.all.all (fun field => (slots.value field).isSome))
      (inspectionError "the private inspection request is incomplete or duplicated")
    let version ← unwrap (slots.value .version)
    let version ← unicodeField version "protocol version"
    Run.ensure (version = toString INSPECTION_PROTOCOL_VERSION)
      (inspectionError "the private inspection protocol version is unsupported")
    let kind ← unwrap (slots.value .kind)
    let kind ← unicodeField kind "inspection kind"
    let kind ← readKind kind
    let token ← unwrap (slots.value .token)
    let token ← unicodeField token "inspection token"
    Run.ensure (token ≠ "")
      (inspectionError "the private inspection token must not be empty")
    let ackPath ← unwrap (slots.value .acknowledgement)
    let responsePath ← unwrap (slots.value .response)
    Run.ensure (ackPath ≠ [] ∧ responsePath ≠ [])
      (inspectionError "private inspection output paths must not be empty")
    Run.ensure (components ackPath ≠ components responsePath)
      (inspectionError "private inspection acknowledgement and response paths must differ")
    return some ⟨kind, token, ackPath, responsePath⟩

/-- The variables of a process. -/
abbrev Environment := Name → Option Name

def fromEnvironment (environment : Environment) : Run Error (Option InspectionRequest) :=
  fromValues (RequestField.all.filterMap fun field =>
    (environment (osStr field.key)).map fun value => (osStr field.key, value))

/-! ### What is read of the environment -/

/-- The values that are there under the key of a field. -/
def given (values : List (Name × Name)) (field : RequestField) : List Name :=
  values.filterMap fun entry => if entry.1 = osStr field.key then some entry.2 else none

variable {values : List (Name × Name)} {field : RequestField}

theorem given_concat (entry : Name × Name) : given (values ++ [entry]) field =
    given values field ++ if entry.1 = osStr field.key then [entry.2] else [] := by
  rw [given, List.filterMap_append]
  by_cases hkey : entry.1 = osStr field.key <;> simp [given, hkey]

theorem value_foldl (values : List (Name × Name)) (field : RequestField) :
    (values.foldl Slots.replace .new).value field = (given values field).getLast? := by
  induction values using List.reverseRecOn with
  | nil => rfl
  | append_singleton values entry ih =>
    rw [List.foldl_append, List.foldl_cons, List.foldl_nil, given_concat, Slots.replace]
    cases hkey : RequestField.ofKey entry.1 with
    | none =>
      have hne : entry.1 ≠ osStr field.key := by
        rw [Ne, ← RequestField.ofKey_eq_some, hkey]
        simp
      rw [if_neg hne, List.append_nil]
      exact ih
    | some other =>
      rw [RequestField.ofKey_eq_some] at hkey
      by_cases hfield : field = other
      · subst hfield
        simp [hkey]
      · have hne : entry.1 ≠ osStr field.key := by
          rw [hkey]
          exact fun heq => hfield (RequestField.key_injective (osStr_injective heq)).symm
        rw [if_neg hne, List.append_nil, ← ih]
        exact Function.update_of_ne hfield _ _

theorem duplicate_foldl (values : List (Name × Name)) :
    (values.foldl Slots.replace .new).duplicate = true ↔
      ∃ field, 1 < (given values field).length := by
  induction values using List.reverseRecOn with
  | nil => simp [Slots.new, given]
  | append_singleton values entry ih =>
    rw [List.foldl_append, List.foldl_cons, List.foldl_nil, Slots.replace]
    simp only [given_concat, List.length_append]
    cases hkey : RequestField.ofKey entry.1 with
    | none =>
      have hne (field : RequestField) : entry.1 ≠ osStr field.key := by
        rw [Ne, ← RequestField.ofKey_eq_some, hkey]
        simp
      simpa [hne] using ih
    | some other =>
      rw [RequestField.ofKey_eq_some] at hkey
      simp only [Bool.or_eq_true, ih, value_foldl, List.getLast?_isSome, hkey]
      constructor
      · rintro (⟨field, hfield⟩ | hother)
        · exact ⟨field, by omega⟩
        · refine ⟨other, ?_⟩
          rw [if_pos rfl]
          have := List.length_pos_of_ne_nil (by simpa using hother)
          simpa using this
      · rintro ⟨field, hfield⟩
        by_cases heq : field = other
        · subst heq
          rw [if_pos rfl, List.length_singleton] at hfield
          refine .inr ?_
          simpa using List.ne_nil_of_length_pos (by omega)
        · have hne : osStr other.key ≠ osStr field.key :=
            fun h => heq (RequestField.key_injective (osStr_injective h)).symm
          rw [if_neg hne] at hfield
          exact .inl ⟨field, by simpa using hfield⟩

theorem none_given_iff (values : List (Name × Name)) :
    (!RequestField.all.any fun field => ((values.foldl Slots.replace .new).value field).isSome) =
      true ↔ ∀ field, given values field = [] := by
  simp only [value_foldl, Bool.not_eq_true', List.any_eq_false, List.getLast?_isSome, not_not]
  exact ⟨fun h field => h field (RequestField.mem_all field), fun h field _ => h field⟩

/-- No key is missing and none is there twice. -/
theorem once_given_iff (values : List (Name × Name)) :
    ((values.foldl Slots.replace .new).duplicate = false ∧
      RequestField.all.all fun field => ((values.foldl Slots.replace .new).value field).isSome) ↔
      ∀ field, ∃ value, given values field = [value] := by
  simp only [← Bool.not_eq_true, duplicate_foldl, value_foldl, List.all_eq_true,
    List.getLast?_isSome, ← List.length_eq_one_iff, not_exists, not_lt]
  constructor
  · rintro ⟨hdup, hall⟩ field
    have hpos := List.length_pos_of_ne_nil (hall field (RequestField.mem_all field))
    have := hdup field
    omega
  · intro h
    refine ⟨fun field => (h field).le, fun field _ => List.ne_nil_of_length_pos ?_⟩
    rw [h field]
    exact Nat.one_pos

/-! ### Which requests are accepted -/

def kindName : InspectionKind → String
  | .routes => "routes"
  | .graph => "graph"
  | .doctor => "doctor"

theorem readKind_eq_ok {name : String} {kind : InspectionKind} :
    readKind name = .ok kind ↔ name = kindName kind := by
  unfold readKind
  constructor
  · intro h
    split at h
    · next hname => cases h; exact hname
    · split at h
      · next hname => cases h; exact hname
      · split at h
        · next hname => cases h; exact hname
        · cases h
  · rintro rfl
    cases kind <;> rfl

/-- Every field is there once, and they make up the request. -/
structure Asks (values : List (Name × Name)) (request : InspectionRequest) : Prop where
  version : given values .version = [osStr (toString INSPECTION_PROTOCOL_VERSION)]
  kind : given values .kind = [osStr (kindName request.kind)]
  token : given values .token = [osStr request.token]
  acknowledgement : given values .acknowledgement = [request.ackPath]
  response : given values .response = [request.responsePath]
  token_ne : request.token ≠ ""
  paths_ne : request.ackPath ≠ [] ∧ request.responsePath ≠ []
  paths_differ : components request.ackPath ≠ components request.responsePath

theorem unicodeField_eq_ok {value : Name} {name text : String} :
    unicodeField value name = .ok text ↔ value = osStr text := by
  rw [unicodeField, Run.okOr_eq_ok, intoString_eq_some]

theorem fromValues_eq_ok_some {request : InspectionRequest} :
    fromValues values = .ok (some request) ↔ Asks values request := by
  unfold fromValues
  dsimp only
  split
  · next hnone =>
    rw [none_given_iff] at hnone
    refine iff_of_false (by simp) fun hasks => ?_
    simpa [hnone] using hasks.version
  · constructor
    · intro h
      obtain ⟨honce, h⟩ := Run.ensure_bind_eq_ok.mp h
      have hgiven := (once_given_iff values).mp honce
      obtain ⟨version, hversion⟩ := hgiven .version
      obtain ⟨kind, hkind⟩ := hgiven .kind
      obtain ⟨token, htoken⟩ := hgiven .token
      obtain ⟨ackPath, hack⟩ := hgiven .acknowledgement
      obtain ⟨responsePath, hresponse⟩ := hgiven .response
      simp only [value_foldl, hversion, hkind, htoken, hack, hresponse, unwrap,
        List.getLast?_singleton, Run.expect_some, Run.ok_bind] at h
      obtain ⟨versionText, hversionText, h⟩ := Run.bind_eq_ok.mp h
      obtain ⟨hsupported, h⟩ := Run.ensure_bind_eq_ok.mp h
      obtain ⟨kindText, hkindText, h⟩ := Run.bind_eq_ok.mp h
      obtain ⟨kind', hreadKind, h⟩ := Run.bind_eq_ok.mp h
      obtain ⟨tokenText, htokenText, h⟩ := Run.bind_eq_ok.mp h
      obtain ⟨htoken_ne, h⟩ := Run.ensure_bind_eq_ok.mp h
      obtain ⟨hpaths_ne, h⟩ := Run.ensure_bind_eq_ok.mp h
      obtain ⟨hdiffer, h⟩ := Run.ensure_bind_eq_ok.mp h
      obtain rfl := Option.some.inj (Except.ok.inj h)
      rw [unicodeField_eq_ok] at hversionText hkindText htokenText
      rw [readKind_eq_ok] at hreadKind
      subst hsupported hversionText hkindText htokenText hreadKind
      exact ⟨hversion, hkind, htoken, hack, hresponse, htoken_ne, hpaths_ne, hdiffer⟩
    · intro hasks
      have hgiven (field : RequestField) : ∃ value, given values field = [value] := by
        cases field with
        | version => exact ⟨_, hasks.version⟩
        | kind => exact ⟨_, hasks.kind⟩
        | token => exact ⟨_, hasks.token⟩
        | acknowledgement => exact ⟨_, hasks.acknowledgement⟩
        | response => exact ⟨_, hasks.response⟩
      refine Run.ensure_bind_eq_ok.mpr ⟨(once_given_iff values).mpr hgiven, ?_⟩
      simp only [value_foldl, hasks.version, hasks.kind, hasks.token, hasks.acknowledgement,
        hasks.response, unwrap, List.getLast?_singleton, Run.expect_some, Run.ok_bind,
        unicodeField_eq_ok.mpr rfl, readKind_eq_ok.mpr rfl]
      refine Run.ensure_bind_eq_ok.mpr ⟨trivial, ?_⟩
      refine Run.ensure_bind_eq_ok.mpr ⟨hasks.token_ne, ?_⟩
      refine Run.ensure_bind_eq_ok.mpr ⟨hasks.paths_ne, ?_⟩
      exact Run.ensure_bind_eq_ok.mpr ⟨hasks.paths_differ, rfl⟩

theorem fromValues_eq_ok_none :
    fromValues values = .ok none ↔ ∀ field, given values field = [] := by
  rw [← none_given_iff, fromValues]
  split
  · next hnone => exact iff_of_true rfl hnone
  · next hsome =>
    refine iff_of_false (fun h => ?_) hsome
    -- the last call returns a request
    simp [Run.bind_eq_ok] at h

/-- Nothing is unwrapped that is not there. -/
theorem fromValues_failsOnly (values : List (Name × Name)) :
    Run.FailsOnly (fun error => ∃ message, error = inspectionError message) (fromValues values) := by
  unfold fromValues
  dsimp only
  split
  · exact .ok none
  · refine .bind (.ensure ⟨_, rfl⟩) fun _ honce => ?_
    have hgiven := (once_given_iff values).mp (Run.ensure_eq_ok.mp honce)
    have hunwrap (field : RequestField) :
        Run.FailsOnly (fun error => ∃ message, error = inspectionError message)
          (unwrap ((values.foldl Slots.replace .new).value field)) := by
      obtain ⟨value, hvalue⟩ := hgiven field
      rw [value_foldl, hvalue]
      exact .ok value
    have hunicode (value : Name) (name : String) :
        Run.FailsOnly (fun error => ∃ message, error = inspectionError message)
          (unicodeField value name) := .okOr ⟨_, rfl⟩
    refine .bind (hunwrap .version) fun version _ => ?_
    refine .bind (hunicode version _) fun version _ => ?_
    refine .bind (.ensure ⟨_, rfl⟩) fun _ _ => ?_
    refine .bind (hunwrap .kind) fun kind _ => ?_
    refine .bind (hunicode kind _) fun kind _ => ?_
    refine .bind ?_ fun kind _ => ?_
    · unfold readKind
      split
      · exact .ok _
      · split
        · exact .ok _
        · split
          · exact .ok _
          · exact .fail ⟨_, rfl⟩
    refine .bind (hunwrap .token) fun token _ => ?_
    refine .bind (hunicode token _) fun token _ => ?_
    refine .bind (.ensure ⟨_, rfl⟩) fun _ _ => ?_
    refine .bind (hunwrap .acknowledgement) fun ackPath _ => ?_
    refine .bind (hunwrap .response) fun responsePath _ => ?_
    refine .bind (.ensure ⟨_, rfl⟩) fun _ _ => ?_
    exact .bind (.ensure ⟨_, rfl⟩) fun _ _ => .ok _

/-- A request that is neither absent nor complete is turned down. -/
theorem fromValues_eq_fail (hsome : ¬ ∀ field, given values field = [])
    (honce : ¬ ∀ field, ∃ value, given values field = [value]) :
    fromValues values = Run.fail
      (inspectionError "the private inspection request is incomplete or duplicated") := by
  rw [← none_given_iff] at hsome
  rw [← once_given_iff] at honce
  rw [fromValues, if_neg hsome, Run.ensure, if_neg honce]
  rfl

/-- It does not matter in which order the variables come. -/
theorem fromValues_congr {other : List (Name × Name)}
    (h : ∀ field, (given values field).Perm (given other field)) :
    fromValues values = fromValues other := by
  by_cases hnone : ∀ field, given values field = []
  · have hother (field : RequestField) : given other field = [] :=
      (hnone field ▸ h field).nil_eq.symm
    rw [fromValues_eq_ok_none.mpr hnone, fromValues_eq_ok_none.mpr hother]
  · have hother : ¬ ∀ field, given other field = [] :=
      fun hempty => hnone fun field => (hempty field ▸ h field).eq_nil
    by_cases honce : ∀ field, ∃ value, given values field = [value]
    · have hsame (field : RequestField) : given values field = given other field := by
        obtain ⟨value, hvalue⟩ := honce field
        rw [hvalue, List.singleton_perm.mp (hvalue ▸ h field)]
      have honce' : ∀ field, ∃ value, given other field = [value] :=
        fun field => hsame field ▸ honce field
      have hslots : values.foldl Slots.replace .new = other.foldl Slots.replace .new := by
        have hvalue : (values.foldl Slots.replace .new).value =
            (other.foldl Slots.replace .new).value := by
          funext field
          rw [value_foldl, value_foldl, hsame]
        have hduplicate := ((once_given_iff values).mpr honce).1.trans
          ((once_given_iff other).mpr honce').1.symm
        generalize values.foldl Slots.replace .new = slots at *
        generalize other.foldl Slots.replace .new = slots' at *
        cases slots
        cases slots'
        rw [Slots.mk.injEq]
        exact ⟨hvalue, hduplicate⟩
      rw [fromValues, fromValues, hslots]
    · have honce' : ¬ ∀ field, ∃ value, given other field = [value] := by
        refine fun hall => honce fun field => ?_
        obtain ⟨value, hvalue⟩ := hall field
        exact ⟨value, List.perm_singleton.mp (hvalue ▸ h field)⟩
      rw [fromValues_eq_fail hnone honce, fromValues_eq_fail hother honce']

/-- A request is accepted exactly if each of its fields is there once and makes sense, there is none
exactly if no field is there, and what else is found is an error: nothing panics, and the order of
the variables does not matter. -/
theorem fromValues_spec (values : List (Name × Name)) :
    (∀ request, fromValues values = .ok (some request) ↔ Asks values request) ∧
    (fromValues values = .ok none ↔ ∀ field, given values field = []) ∧
    (∀ halt, fromValues values = .error halt → ∃ message, halt = .err (inspectionError message)) ∧
    ∀ other : List (Name × Name), values.Perm other → fromValues values = fromValues other := by
  refine ⟨fun request => fromValues_eq_ok_some, fromValues_eq_ok_none, fun halt h => ?_,
    fun other h => fromValues_congr fun field => h.filterMap _⟩
  obtain ⟨error, rfl, message, rfl⟩ := fromValues_failsOnly values halt h
  exact ⟨message, rfl⟩

/-! ### What the command line asks for -/

/-- A program to start, where, and the variables that it gets besides the inherited ones. -/
structure Command where
  program : Path
  currentDir : Path
  env : List (String × Name)
  deriving DecidableEq, Repr

def Command.environment (command : Command) (inherited : Environment) : Environment :=
  command.env.foldl
    (fun environment entry => Function.update environment (osStr entry.1) (some entry.2)) inherited

def inspectionCommand (target : ResolvedApplication) (executable : Path) (kind : InspectionKind)
    (token : String) (acknowledgement response : Name) : Command where
  program := executable
  currentDir := target.package.packageRoot
  env := [
    (RequestField.version.key, osStr (toString INSPECTION_PROTOCOL_VERSION)),
    (RequestField.kind.key, osStr (kindName kind)),
    (RequestField.token.key, osStr token),
    (RequestField.acknowledgement.key, acknowledgement),
    (RequestField.response.key, response)]

/-- The version's text begins with its major and its minor number. -/
def ensureSupportedMadsVersion (target : ResolvedApplication) : Except CliError Unit :=
  let found := target.madsVersion.getD "no direct mads dependency"
  if target.madsVersion.any fun version => (osStr "0.7.").isPrefixOf (osStr version) then .ok ()
  else .error { Inspection.inspectionError
      s!"the selected application uses {found}; private inspection requires a direct MADS 0.7 dependency" with
    suggestions := ["upgrade the selected application to MADS 0.7"] }

def inspectionToken (processId : ℕ) (sinceEpoch : Except String ℕ) : Except CliError String :=
  match sinceEpoch with
  | .error reason =>
    .error { Inspection.inspectionError "could not create an inspection correlation token" with
      source := some reason }
  | .ok nanoseconds => .ok (toString processId ++ "-" ++ toString nanoseconds)

/-- `inspect_application` up to the start of the process: what is started, and the token, the
acknowledgement and the response that are waited for. -/
def inspectApplication (target : ResolvedApplication) (executable : Path) (kind : InspectionKind)
    (directory : Except String Name) (processId : ℕ) (sinceEpoch : Except String ℕ) :
    Except CliError (Command × String × Name × Name) :=
  match ensureSupportedMadsVersion target with
  | .error error => .error error
  | .ok () =>
    match directory with
    | .error reason =>
      .error { Inspection.inspectionError "could not prepare private inspection transport" with
        source := some reason }
    | .ok directory =>
      match inspectionToken processId sinceEpoch with
      | .error error => .error error
      | .ok token =>
        let acknowledgement := push directory (osStr "acknowledgement.json")
        let response := push directory (osStr "response.json")
        .ok (inspectionCommand target executable kind token acknowledgement response, token,
          acknowledgement, response)

/-! ### What is asked for is read -/

/-- The environment holds each key once. -/
theorem given_environment (environment : Environment) (field : RequestField) :
    given (RequestField.all.filterMap fun field =>
      (environment (osStr field.key)).map fun value => (osStr field.key, value)) field =
      (environment (osStr field.key)).toList := by
  have hkey (other : RequestField) : osStr other.key = osStr field.key ↔ other = field :=
    ⟨fun h => RequestField.key_injective (osStr_injective h), fun h => h ▸ rfl⟩
  have hentry (other : RequestField) :
      ((environment (osStr other.key)).map fun value => (osStr other.key, value)).bind
        (fun entry => if entry.1 = osStr field.key then some entry.2 else none) =
      if other = field then environment (osStr field.key) else none := by
    by_cases heq : other = field
    · subst heq
      cases environment (osStr other.key) <;> simp
    · cases environment (osStr other.key) <;> simp [hkey, heq]
  rw [given, List.filterMap_filterMap]
  simp only [hentry]
  cases field <;> cases environment _ <;> rfl

theorem fromEnvironment_eq_ok_some {environment : Environment} {request : InspectionRequest}
    (hversion : environment (osStr RequestField.version.key) =
      some (osStr (toString INSPECTION_PROTOCOL_VERSION)))
    (hkind : environment (osStr RequestField.kind.key) = some (osStr (kindName request.kind)))
    (htoken : environment (osStr RequestField.token.key) = some (osStr request.token))
    (hack : environment (osStr RequestField.acknowledgement.key) = some request.ackPath)
    (hresponse : environment (osStr RequestField.response.key) = some request.responsePath)
    (htoken_ne : request.token ≠ "")
    (hpaths_ne : request.ackPath ≠ [] ∧ request.responsePath ≠ [])
    (hdiffer : components request.ackPath ≠ components request.responsePath) :
    fromEnvironment environment = .ok (some request) := by
  refine fromValues_eq_ok_some.mpr ⟨?_, ?_, ?_, ?_, ?_, htoken_ne, hpaths_ne, hdiffer⟩
  all_goals rw [given_environment]
  · rw [hversion, Option.toList_some]
  · rw [hkind, Option.toList_some]
  · rw [htoken, Option.toList_some]
  · rw [hack, Option.toList_some]
  · rw [hresponse, Option.toList_some]

/-- A variable that is set once is there, whatever was inherited. -/
theorem Command.environment_of_mem {command : Command} {inherited : Environment} {key : String}
    {value : Name} (hnodup : (command.env.map (·.1)).Nodup) (h : (key, value) ∈ command.env) :
    command.environment inherited (osStr key) = some value := by
  unfold Command.environment
  generalize command.env = entries at hnodup h
  induction entries using List.reverseRecOn with
  | nil => cases h
  | append_singleton entries entry ih =>
    rw [List.foldl_append, List.foldl_cons, List.foldl_nil]
    rw [List.map_append, List.nodup_append] at hnodup
    obtain hmem | hmem := List.mem_append.mp h
    · have hne : key ≠ entry.1 :=
        hnodup.2.2 key (List.mem_map_of_mem hmem) entry.1 (by simp)
      rw [Function.update_of_ne fun heq => hne (osStr_injective heq)]
      exact ih hnodup.1 hmem
    · obtain rfl := List.mem_singleton.mp hmem
      exact Function.update_self ..

theorem inspectionToken_ne {processId : ℕ} {sinceEpoch : Except String ℕ} {token : String}
    (h : inspectionToken processId sinceEpoch = .ok token) : token ≠ "" := by
  unfold inspectionToken at h
  split at h
  · cases h
  · obtain rfl := Except.ok.inj h
    simp

theorem push_ne_nil {directory name : Name} (h : name ≠ []) : push directory name ≠ [] := by
  unfold push
  split
  · exact h
  · split <;> simp [h]

/-- Whatever the environment is that it inherits, the application that the command line starts reads
the request that the command line waits for. -/
theorem inspectApplication_asks {target : ResolvedApplication} {executable : Path}
    {kind : InspectionKind} {directory : Except String Name} {processId : ℕ}
    {sinceEpoch : Except String ℕ} {command : Command} {token : String}
    {acknowledgement response : Name}
    (h : inspectApplication target executable kind directory processId sinceEpoch =
      .ok (command, token, acknowledgement, response)) (inherited : Environment) :
    fromEnvironment (command.environment inherited) =
      .ok (some ⟨kind, token, acknowledgement, response⟩) := by
  unfold inspectApplication at h
  split at h
  · cases h
  · split at h
    · cases h
    · next directory =>
      dsimp only at h
      split at h
      · cases h
      · next text htoken =>
        obtain ⟨rfl, rfl, rfl, rfl⟩ := by simpa using h
        have hnodup : ((inspectionCommand target executable kind text
            (push directory (osStr "acknowledgement.json"))
            (push directory (osStr "response.json"))).env.map (·.1)).Nodup := by
          show (RequestField.all.map RequestField.key).Nodup
          decide
        have hdiffer : components (push directory (osStr "acknowledgement.json")) ≠
            components (push directory (osStr "response.json")) := by
          rw [components_push (by decide) (by decide), components_push (by decide) (by decide)]
          simp only [ne_eq, List.append_cancel_left_eq]
          decide
        have hack : osStr "acknowledgement.json" ≠ [] := by decide
        have hresponse : osStr "response.json" ≠ [] := by decide
        refine fromEnvironment_eq_ok_some ?_ ?_ ?_ ?_ ?_ (inspectionToken_ne htoken)
          ⟨push_ne_nil hack, push_ne_nil hresponse⟩ hdiffer
        all_goals exact Command.environment_of_mem hnodup (by simp [inspectionCommand])

section Sample

def sampleTarget : ResolvedApplication where
  package := {
    workspaceRoot := [.rootDir, .normal (osStr "shop")]
    packageRoot := [.rootDir, .normal (osStr "shop")]
    manifestPath := [.rootDir, .normal (osStr "shop"), .normal (osStr "Cargo.toml")]
    packageId := "path+file:///shop#0.1.0"
    packageName := "shop" }
  binaryName := "shop"
  madsVersion := some "0.7.2"

/-- The application itself is started by an inspection: a request for the routes is inherited. -/
def sampleInherited : Environment := fun key =>
  if key = osStr "MADS_INTERNAL_INSPECTION_KIND" then some (osStr "routes") else none

theorem inspectApplication_asks_sample : ∃ command,
    inspectApplication sampleTarget [] .graph (.ok (osStr "/tmp/a/")) 7 (.ok 41) =
      .ok (command, "7-41", osStr "/tmp/a/acknowledgement.json", osStr "/tmp/a/response.json") ∧
    fromEnvironment (command.environment sampleInherited) = .ok (some
      ⟨.graph, "7-41", osStr "/tmp/a/acknowledgement.json", osStr "/tmp/a/response.json"⟩) := by
  have h : inspectApplication sampleTarget [] .graph (.ok (osStr "/tmp/a/")) 7 (.ok 41) =
      .ok (_, "7-41", osStr "/tmp/a/acknowledgement.json", osStr "/tmp/a/response.json") := rfl
  exact ⟨_, h, inspectApplication_asks h sampleInherited⟩

end Sample

end InspectionRequest

end Mads
