import Mads.Cli.Diagnostic
import Mads.Library.Trace

/-!
# The private inspection handshake

Supervisor and child share two files and an exit status.  The supervisor makes one system call at
a time; between two of them the child may take any of its steps.
-/

namespace Mads

def MADS203 : String := "MADS203"

def INSPECTION_PROTOCOL_VERSION : ℕ := 1

inductive InspectionKind where
  | routes
  | graph
  | doctor
  deriving DecidableEq, Repr

/-- A report: its kind, and the evidence in it, which is passed on as it came. -/
structure InspectionReport where
  kind : InspectionKind
  evidence : String
  deriving DecidableEq, Repr

structure InspectionAcknowledgement where
  protocolVersion : ℕ
  token : String
  deriving DecidableEq, Repr

structure InspectionEnvelope where
  protocolVersion : ℕ
  token : String
  report : InspectionReport
  deriving DecidableEq, Repr

/-- How a process ended, and the text of its status. -/
structure ExitStatus where
  success : Bool
  display : String
  deriving DecidableEq, Repr

/-- What a published file holds: a value of the expected type, or bytes that are none. -/
inductive Published (α : Type) where
  | json (value : α)
  | malformed (reason : String)
  deriving DecidableEq, Repr

namespace Inspection

def inspectionError (message : String) : CliError where
  code := MADS203
  title := "Application inspection failed"
  message := message

/-- The system call that the supervisor makes next. -/
inductive Supervisor where
  | acknowledgementExists
  | acknowledgementRead
  | acknowledgementAlive
  | acknowledgementDeadline
  | responseExists
  | responseRead
  | responseAlive
  | responseDeadline
  | exitWait (report : InspectionReport)
  | exitDeadline (report : InspectionReport)
  | returned (result : Except CliError InspectionReport)
  deriving DecidableEq, Repr

/-- The files and the process, and where the supervisor is. -/
structure Handshake where
  acknowledgement : Option (Published InspectionAcknowledgement)
  response : Option (Published InspectionEnvelope)
  exited : Option ExitStatus
  supervisor : Supervisor
  deriving DecidableEq, Repr

def Handshake.new : Handshake := ⟨none, none, none, .acknowledgementExists⟩

/-- What a system call finds apart from files and process: an input or output error, and whether
the deadline of the current phase has passed. -/
structure Observation where
  failure : Option String
  late : Bool
  deriving DecidableEq, Repr

inductive Event where
  | publishAcknowledgement (file : Published InspectionAcknowledgement)
  | publishResponse (file : Published InspectionEnvelope)
  | exit (status : ExitStatus)
  | poll (observation : Observation)
  deriving DecidableEq, Repr

/-- `read_json`. -/
def readJson {α : Type} (file : Option (Published α)) (failure : Option String) :
    Except CliError α :=
  match failure, file with
  | some reason, _ =>
    .error { inspectionError "could not read private inspection output" with source := some reason }
  | none, none =>
    .error { inspectionError "could not read private inspection output" with
      source := some "No such file or directory (os error 2)" }
  | none, some (.malformed reason) =>
    .error { inspectionError "the application returned malformed private inspection output" with
      source := some reason }
  | none, some (.json value) => .ok value

/-- `Child::try_wait`. -/
def tryWait (exited : Option ExitStatus) (failure : Option String) :
    Except CliError (Option ExitStatus) :=
  match failure with
  | some reason =>
    .error { inspectionError "could not observe the inspection application" with
      source := some reason }
  | none => .ok exited

theorem readJson_eq_ok {α : Type} {file : Option (Published α)} {failure : Option String}
    {value : α} :
    readJson file failure = .ok value ↔ failure = none ∧ file = some (.json value) := by
  unfold readJson
  split <;> simp

theorem tryWait_eq_ok {exited status : Option ExitStatus} {failure : Option String} :
    tryWait exited failure = .ok status ↔ failure = none ∧ exited = status := by
  unfold tryWait
  split <;> simp

def ensureChildIsRunning (exited : Option ExitStatus) (failure : Option String) :
    Except CliError Unit :=
  match tryWait exited failure with
  | .error error => .error error
  | .ok (some status) => .error (inspectionError
      ("the application exited before completing private inspection (" ++ status.display ++
        "); v0.7 inspection requires the standard Mads::run::<AppModule>() entry point"))
  | .ok none => .ok ()

theorem ensureChildIsRunning_eq_ok {exited : Option ExitStatus} {failure : Option String} :
    ensureChildIsRunning exited failure = .ok () ↔ failure = none ∧ exited = none := by
  cases failure <;> cases exited <;> simp [ensureChildIsRunning, tryWait]

section Supervise

variable (kind : InspectionKind) (token : String)

/-- One system call of `supervise`, up to the next one. -/
def supervise (handshake : Handshake) (observation : Observation) : Supervisor :=
  match handshake.supervisor with
  | .acknowledgementExists =>
    -- `Path::exists` answers `false` on an error
    if observation.failure.isNone && handshake.acknowledgement.isSome then .acknowledgementRead
    else .acknowledgementAlive
  | .acknowledgementRead =>
    match readJson handshake.acknowledgement observation.failure with
    | .error error => .returned (.error error)
    | .ok acknowledgement =>
      if acknowledgement.protocolVersion ≠ INSPECTION_PROTOCOL_VERSION ∨
          acknowledgement.token ≠ token then
        .returned (.error (inspectionError
          "the application returned an invalid inspection acknowledgement"))
      else .responseExists
  | .acknowledgementAlive =>
    match ensureChildIsRunning handshake.exited observation.failure with
    | .error error => .returned (.error error)
    | .ok () => .acknowledgementDeadline
  | .acknowledgementDeadline =>
    if observation.late then
      .returned (.error (inspectionError
        "the application did not acknowledge the inspection request in time; v0.7 inspection requires the standard Mads::run::<AppModule>() entry point"))
    else .acknowledgementExists
  | .responseExists =>
    if observation.failure.isNone && handshake.response.isSome then .responseRead
    else .responseAlive
  | .responseRead =>
    match readJson handshake.response observation.failure with
    | .error error => .returned (.error error)
    | .ok envelope =>
      if envelope.protocolVersion ≠ INSPECTION_PROTOCOL_VERSION ∨ envelope.token ≠ token ∨
          envelope.report.kind ≠ kind then
        .returned (.error (inspectionError
          "the application returned an invalid inspection report"))
      else .exitWait envelope.report
  | .responseAlive =>
    match ensureChildIsRunning handshake.exited observation.failure with
    | .error error => .returned (.error error)
    | .ok () => .responseDeadline
  | .responseDeadline =>
    if observation.late then
      .returned (.error (inspectionError
        "the application did not return an inspection report in time"))
    else .responseExists
  | .exitWait report =>
    match tryWait handshake.exited observation.failure with
    | .error error => .returned (.error error)
    | .ok (some status) =>
      if status.success then .returned (.ok report)
      else .returned (.error (inspectionError
        ("the application exited unsuccessfully after private inspection (" ++ status.display ++
          ")")))
    | .ok none => .exitDeadline report
  | .exitDeadline report =>
    if observation.late then
      .returned (.error (inspectionError
        "the application did not exit after private inspection in time"))
    else .exitWait report
  | .returned result => .returned result

/-- A step of the child, while it runs, or of the supervisor, until it returns.  A file is
published whole, and only once. -/
def Handshake.step (handshake : Handshake) : Event → Option (Handshake × Unit)
  | .publishAcknowledgement file =>
    if handshake.exited.isNone && handshake.acknowledgement.isNone then
      some ({ handshake with acknowledgement := some file }, ())
    else none
  | .publishResponse file =>
    if handshake.exited.isNone && handshake.response.isNone then
      some ({ handshake with response := some file }, ())
    else none
  | .exit status =>
    if handshake.exited.isNone then some ({ handshake with exited := some status }, ()) else none
  | .poll observation =>
    match handshake.supervisor with
    | .returned _ => none
    | _ => some ({ handshake with supervisor := supervise kind token handshake observation }, ())

end Supervise

section Runs

variable {kind : InspectionKind} {token : String} {report : InspectionReport}

/-- The published acknowledgement carries the expected version and token. -/
def Acknowledged (token : String) (handshake : Handshake) : Prop :=
  handshake.acknowledgement = some (.json ⟨INSPECTION_PROTOCOL_VERSION, token⟩)

/-- The published report is this one, with the expected version, token and kind. -/
def Reported (kind : InspectionKind) (token : String) (report : InspectionReport)
    (handshake : Handshake) : Prop :=
  handshake.response = some (.json ⟨INSPECTION_PROTOCOL_VERSION, token, report⟩) ∧
    report.kind = kind

def Exited (handshake : Handshake) : Prop :=
  ∃ status, handshake.exited = some status ∧ status.success = true

/-- What must have been seen for the supervisor to come to a call. -/
def Seen (kind : InspectionKind) (token : String) (handshake : Handshake) : Supervisor → Prop
  | .acknowledgementExists => True
  | .acknowledgementRead => True
  | .acknowledgementAlive => True
  | .acknowledgementDeadline => True
  | .responseExists => Acknowledged token handshake
  | .responseRead => Acknowledged token handshake
  | .responseAlive => Acknowledged token handshake
  | .responseDeadline => Acknowledged token handshake
  | .exitWait report => Acknowledged token handshake ∧ Reported kind token report handshake
  | .exitDeadline report => Acknowledged token handshake ∧ Reported kind token report handshake
  | .returned (.ok report) =>
    Acknowledged token handshake ∧ Reported kind token report handshake ∧ Exited handshake
  | .returned (.error _) => True

/-- A step of the child takes back nothing that was seen. -/
theorem Seen.mono {s next : Handshake} {supervisor : Supervisor}
    (h : Seen kind token s supervisor)
    (hack : ∀ file, s.acknowledgement = some file → next.acknowledgement = some file)
    (hresponse : ∀ file, s.response = some file → next.response = some file)
    (hexited : ∀ status, s.exited = some status → next.exited = some status) :
    Seen kind token next supervisor := by
  have hreported {report : InspectionReport} (h : Reported kind token report s) :
      Reported kind token report next := ⟨hresponse _ h.1, h.2⟩
  cases supervisor with
  | acknowledgementExists => trivial
  | acknowledgementRead => trivial
  | acknowledgementAlive => trivial
  | acknowledgementDeadline => trivial
  | responseExists => exact hack _ h
  | responseRead => exact hack _ h
  | responseAlive => exact hack _ h
  | responseDeadline => exact hack _ h
  | exitWait report => exact ⟨hack _ h.1, hreported h.2⟩
  | exitDeadline report => exact ⟨hack _ h.1, hreported h.2⟩
  | returned result =>
    cases result with
    | error _ => trivial
    | ok report =>
      obtain ⟨hacked, hresponded, status, hstatus, hsuccess⟩ := h
      exact ⟨hack _ hacked, hreported hresponded, status, hexited _ hstatus, hsuccess⟩

/-- Each call keeps what was seen, and adds what it accepts. -/
theorem Seen.poll {s : Handshake} (observation : Observation)
    (h : Seen kind token s s.supervisor) :
    Seen kind token s (supervise kind token s observation) := by
  unfold supervise
  cases hpc : s.supervisor with
  | acknowledgementExists =>
    dsimp only
    split
    · trivial
    · trivial
  | acknowledgementRead =>
    dsimp only
    cases hread : readJson s.acknowledgement observation.failure with
    | error error => trivial
    | ok acknowledgement =>
      dsimp only
      split
      · trivial
      · next hvalid =>
        obtain ⟨hversion, htoken⟩ := not_or.mp hvalid
        show s.acknowledgement = _
        rw [(readJson_eq_ok.mp hread).2, ← not_ne_iff.mp hversion, ← not_ne_iff.mp htoken]
  | acknowledgementAlive =>
    dsimp only
    cases ensureChildIsRunning s.exited observation.failure with
    | error error => trivial
    | ok _ => trivial
  | acknowledgementDeadline =>
    dsimp only
    split
    · trivial
    · trivial
  | responseExists =>
    rw [hpc] at h
    dsimp only
    split
    · exact h
    · exact h
  | responseRead =>
    rw [hpc] at h
    dsimp only
    cases hread : readJson s.response observation.failure with
    | error error => trivial
    | ok envelope =>
      dsimp only
      split
      · trivial
      · next hvalid =>
        obtain ⟨hversion, hvalid⟩ := not_or.mp hvalid
        obtain ⟨htoken, hkind⟩ := not_or.mp hvalid
        refine ⟨h, ?_, not_ne_iff.mp hkind⟩
        rw [(readJson_eq_ok.mp hread).2, ← not_ne_iff.mp hversion, ← not_ne_iff.mp htoken]
  | responseAlive =>
    rw [hpc] at h
    dsimp only
    cases ensureChildIsRunning s.exited observation.failure with
    | error error => trivial
    | ok _ => exact h
  | responseDeadline =>
    rw [hpc] at h
    dsimp only
    split
    · trivial
    · exact h
  | exitWait report =>
    rw [hpc] at h
    dsimp only
    cases hwait : tryWait s.exited observation.failure with
    | error error => trivial
    | ok status =>
      cases status with
      | none => exact h
      | some status =>
        dsimp only
        split
        · next hsuccess => exact ⟨h.1, h.2, status, (tryWait_eq_ok.mp hwait).2, hsuccess⟩
        · trivial
  | exitDeadline report =>
    rw [hpc] at h
    dsimp only
    split
    · trivial
    · exact h
  | returned result =>
    rw [hpc] at h
    exact h

/-- What each step can do, guards included. -/
inductive Steps (kind : InspectionKind) (token : String) (s : Handshake) : Event → Handshake → Prop
  | publishAcknowledgement (file : Published InspectionAcknowledgement) (halive : s.exited = none)
      (hfile : s.acknowledgement = none) :
      Steps kind token s (.publishAcknowledgement file) { s with acknowledgement := some file }
  | publishResponse (file : Published InspectionEnvelope) (halive : s.exited = none)
      (hfile : s.response = none) :
      Steps kind token s (.publishResponse file) { s with response := some file }
  | exit (status : ExitStatus) (halive : s.exited = none) :
      Steps kind token s (.exit status) { s with exited := some status }
  | poll (observation : Observation) (hrunning : ∀ result, s.supervisor ≠ .returned result) :
      Steps kind token s (.poll observation)
        { s with supervisor := supervise kind token s observation }

theorem step_steps {s next : Handshake} {event : Event} {output : Unit}
    (h : s.step kind token event = some (next, output)) : Steps kind token s event next := by
  cases event with
  | publishAcknowledgement file =>
    rw [Handshake.step, Option.ite_none_right_eq_some] at h
    obtain ⟨hguard, heq⟩ := h
    obtain ⟨rfl, -⟩ := Prod.mk.inj (Option.some.inj heq)
    simp only [Bool.and_eq_true, Option.isNone_iff_eq_none] at hguard
    exact .publishAcknowledgement file hguard.1 hguard.2
  | publishResponse file =>
    rw [Handshake.step, Option.ite_none_right_eq_some] at h
    obtain ⟨hguard, heq⟩ := h
    obtain ⟨rfl, -⟩ := Prod.mk.inj (Option.some.inj heq)
    simp only [Bool.and_eq_true, Option.isNone_iff_eq_none] at hguard
    exact .publishResponse file hguard.1 hguard.2
  | exit status =>
    rw [Handshake.step, Option.ite_none_right_eq_some] at h
    obtain ⟨hguard, heq⟩ := h
    obtain ⟨rfl, -⟩ := Prod.mk.inj (Option.some.inj heq)
    exact .exit status (Option.isNone_iff_eq_none.mp hguard)
  | poll observation =>
    rw [Handshake.step] at h
    split at h
    · cases h
    · next hrunning =>
      obtain ⟨rfl, -⟩ := Prod.mk.inj (Option.some.inj h)
      exact .poll observation hrunning

theorem Steps.seen {s next : Handshake} {event : Event} (hstep : Steps kind token s event next)
    (h : Seen kind token s s.supervisor) : Seen kind token next next.supervisor := by
  cases hstep with
  | publishAcknowledgement file halive hfile =>
    exact h.mono (by simp [hfile]) (fun _ => id) (fun _ => id)
  | publishResponse file halive hfile =>
    exact h.mono (fun _ => id) (by simp [hfile]) (fun _ => id)
  | exit status halive => exact h.mono (fun _ => id) (fun _ => id) (by simp [halive])
  | poll observation hrunning =>
    exact (h.poll observation).mono (fun _ => id) (fun _ => id) (fun _ => id)

/-- A report is only returned for a child that followed the protocol. -/
theorem reaches_seen {s : Handshake} {log : List (Machine.Entry Handshake Event Unit)}
    (h : Machine.Reaches .new (Handshake.step kind token) s log) :
    Seen kind token s s.supervisor := by
  induction h with
  | start => trivial
  | next _ hstep ih => exact (step_steps hstep).seen ih

end Runs

end Inspection

end Mads
