import Mads.Cli.Inspection
import Mads.Library.Paths
import Mads.Library.Simulation

/-!
# Both sides of the private inspection

The application writes each output to a temporary file and renames that one, while the supervisor
looks for the outputs and reads them.
-/

namespace Mads

namespace InspectionProtocol

open Inspection

/-- The outputs as bytes, and what is read back of bytes. -/
structure Encoding where
  acknowledgement : InspectionAcknowledgement → List UInt8
  readAcknowledgement : List UInt8 → Except String InspectionAcknowledgement
  envelope : InspectionEnvelope → List UInt8
  readEnvelope : List UInt8 → Except String InspectionEnvelope

/-- What the application is asked for, and what it finds out about itself. -/
structure Request where
  kind : InspectionKind
  token : String
  report : InspectionReport
  report_kind : report.kind = kind

def Request.acknowledgement (request : Request) : InspectionAcknowledgement :=
  ⟨INSPECTION_PROTOCOL_VERSION, request.token⟩

def Request.envelope (request : Request) : InspectionEnvelope :=
  ⟨INSPECTION_PROTOCOL_VERSION, request.token, request.report⟩

/-- What is written for the request is read back. -/
structure Encoding.RoundTrips (encoding : Encoding) (request : Request) : Prop where
  acknowledgement : encoding.readAcknowledgement (encoding.acknowledgement request.acknowledgement) =
    .ok request.acknowledgement
  envelope : encoding.readEnvelope (encoding.envelope request.envelope) = .ok request.envelope

inductive Output where
  | acknowledgement
  | response
  deriving DecidableEq

/-- The next call of `publish_atomic`. -/
inductive Publishing where
  | tryExists
  | create
  | write (rest : List UInt8)
  | sync
  | rename
  | remove (failure : Option String)
  deriving DecidableEq

/-- Where the application is in `run_inspection`. -/
inductive Application where
  | publishing (output : Output) (call : Publishing)
  | inspecting
  | finished
  | failed (message : String)
  deriving DecidableEq

/-- The files, the process, and where each side is. -/
structure System where
  acknowledgement : Option (List UInt8)
  response : Option (List UInt8)
  temporary : Option (List UInt8)
  application : Application
  exited : Option ExitStatus
  supervisor : Supervisor
  deriving DecidableEq

namespace System

def new : System :=
  ⟨none, none, none, .publishing .acknowledgement .tryExists, none, .acknowledgementExists⟩

def file (s : System) : Output → Option (List UInt8)
  | .acknowledgement => s.acknowledgement
  | .response => s.response

/-- The output gets the name and the bytes of the temporary file. -/
def publish (s : System) : Output → System
  | .acknowledgement => { s with acknowledgement := s.temporary, temporary := none }
  | .response => { s with response := s.temporary, temporary := none }

def goes (s : System) (application : Application) : System := { s with application }

end System

/-- A call of the application works or fails, or writes a part of the bytes; its process may end at
any time; and the supervisor makes its next call. -/
inductive Event where
  | call (works : Bool)
  | wrote (count : ℕ)
  | exit (status : ExitStatus)
  | poll (observation : Observation)
  deriving DecidableEq

variable (encoding : Encoding) (request : Request)

def bytesOf : Output → List UInt8
  | .acknowledgement => encoding.acknowledgement request.acknowledgement
  | .response => encoding.envelope request.envelope

/-- What follows on the removal of the temporary file, if one is left. -/
def afterRemoval : Output → Option String → Application
  | _, some message => .failed message
  | .acknowledgement, none => .inspecting
  | .response, none => .finished

/-- The next call of the application. -/
def call (s : System) (works : Bool) : Option System :=
  match s.application with
  | .publishing output .tryExists =>
    if !works then some (s.goes (.failed "the private inspection output path is not accessible"))
    else if (s.file output).isSome then
      some (s.goes (.failed "the private inspection output path already exists"))
    else some (s.goes (.publishing output .create))
  | .publishing output .create =>
    if works then
      some { s with
        temporary := some []
        application := .publishing output (.write (bytesOf encoding request output)) }
    else some (s.goes (.failed "the private inspection temporary output could not be created"))
  | .publishing output (.write rest) =>
    if works then
      some { s with
        temporary := s.temporary.map (· ++ rest)
        application := .publishing output .sync }
    else some (s.goes (.publishing output
      (.remove (some "the private inspection output could not be written"))))
  | .publishing output .sync =>
    if works then some (s.goes (.publishing output .rename))
    else some (s.goes (.publishing output
      (.remove (some "the private inspection output could not be synced"))))
  | .publishing output .rename =>
    if !works then some (s.goes (.publishing output
      (.remove (some "the private inspection output could not be published"))))
    -- `RenameFlags::NOREPLACE`
    else if (s.file output).isSome then some (s.goes (.publishing output
      (.remove (some "the private inspection output path already exists"))))
    else some ((s.publish output).goes (.publishing output (.remove none)))
  | .publishing output (.remove failure) =>
    some { s with
      temporary := if works then none else s.temporary
      application := afterRemoval output failure }
  -- the inspection itself answers with a report in any case
  | .inspecting => some (s.goes (.publishing .response .tryExists))
  | .finished | .failed _ => none

/-- What the supervisor sees of the system. -/
def published {α : Type} (read : List UInt8 → Except String α) (bytes : List UInt8) :
    Published α :=
  match read bytes with
  | .ok value => .json value
  | .error reason => .malformed reason

def System.view (s : System) : Handshake where
  acknowledgement := s.acknowledgement.map (published encoding.readAcknowledgement)
  response := s.response.map (published encoding.readEnvelope)
  exited := s.exited
  supervisor := s.supervisor

def System.step (s : System) : Event → Option (System × Unit)
  | .call works =>
    if s.exited.isSome then none
    else (InspectionProtocol.call encoding request s works).map (·, ())
  | .wrote count =>
    match s.exited, s.application with
    | none, .publishing output (.write rest) => some ({ s with
        temporary := s.temporary.map (· ++ rest.take count)
        application := .publishing output (.write (rest.drop count)) }, ())
    | _, _ => none
  | .exit status =>
    -- only the end of `run_inspection` is a success
    if s.exited.isNone && (!status.success || s.application = .finished) then
      some ({ s with exited := some status }, ())
    else none
  | .poll observation =>
    match s.supervisor with
    | .returned _ => none
    | _ => some ({ s with
        supervisor := supervise request.kind request.token (s.view encoding) observation }, ())

/-- The runs of both sides. -/
abbrev Reaches (s : System) (log : List (Machine.Entry System Event Unit)) : Prop :=
  Machine.Reaches .new (System.step encoding request) s log

/-! ### What is kept -/

/-- What the application has behind it. -/
def Behind (s : System) : Application → Prop
  | .publishing .acknowledgement (.remove none) => s.acknowledgement.isSome
  | .publishing .acknowledgement _ => True
  | .inspecting => s.acknowledgement.isSome
  | .publishing .response (.remove none) => s.acknowledgement.isSome ∧ s.response.isSome
  | .publishing .response _ => s.acknowledgement.isSome
  | .finished => s.acknowledgement.isSome ∧ s.response.isSome
  | .failed _ => True

/-- What is in the temporary file while it is written and until it is renamed. -/
def Temporary (s : System) : Application → Prop
  | .publishing output (.write rest) =>
    ∃ written, s.temporary = some written ∧ written ++ rest = bytesOf encoding request output
  | .publishing output .sync => s.temporary = some (bytesOf encoding request output)
  | .publishing output .rename => s.temporary = some (bytesOf encoding request output)
  | _ => True

structure Kept (s : System) : Prop where
  whole : ∀ output bytes, s.file output = some bytes → bytes = bytesOf encoding request output
  behind : Behind s s.application
  temporary : Temporary encoding request s s.application
  exited : ∀ status, s.exited = some status → status.success = true → s.response.isSome

variable {encoding request} {s t : System}

theorem kept_new : Kept encoding request .new := by
  refine ⟨fun output bytes hfile => ?_, trivial, trivial, fun status hstatus => ?_⟩
  · cases output <;> cases hfile
  · cases hstatus

/-! ### What the steps can do -/

/-- The output that a call publishes, if it publishes one. -/
def renamed (s : System) (works : Bool) : Option Output :=
  match s.application with
  | .publishing output .rename => if works && (s.file output).isNone then some output else none
  | _ => none

variable (encoding request) in
/-- What a call of the application can do, and which output it publishes. -/
inductive Calls (s : System) : Option Output → System → Prop
  | fails {output : Output} {next : Publishing} (message : String)
      (h : s.application = .publishing output next) : Calls s none (s.goes (.failed message))
  | undoes {output : Output} {next : Publishing} (message : String)
      (h : s.application = .publishing output next) :
      Calls s none (s.goes (.publishing output (.remove (some message))))
  | finds {output : Output} (h : s.application = .publishing output .tryExists) :
      Calls s none (s.goes (.publishing output .create))
  | creates {output : Output} (h : s.application = .publishing output .create) :
      Calls s none { s with
        temporary := some []
        application := .publishing output (.write (bytesOf encoding request output)) }
  | writes {output : Output} {rest : List UInt8}
      (h : s.application = .publishing output (.write rest)) :
      Calls s none { s with
        temporary := s.temporary.map (· ++ rest)
        application := .publishing output .sync }
  | syncs {output : Output} (h : s.application = .publishing output .sync) :
      Calls s none (s.goes (.publishing output .rename))
  | renames {output : Output} (h : s.application = .publishing output .rename)
      (hfree : s.file output = none) :
      Calls s (some output) ((s.publish output).goes (.publishing output (.remove none)))
  | removes {output : Output} {failure : Option String} (temporary : Option (List UInt8))
      (h : s.application = .publishing output (.remove failure)) :
      Calls s none { s with temporary, application := afterRemoval output failure }
  | inspects (h : s.application = .inspecting) :
      Calls s none (s.goes (.publishing .response .tryExists))

theorem Calls.supervisor_eq {shown : Option Output} (h : Calls encoding request s shown t) :
    t.supervisor = s.supervisor := by
  cases h with
  | @renames output => cases output <;> rfl
  | _ => rfl

theorem Calls.exited_eq {shown : Option Output} (h : Calls encoding request s shown t) :
    t.exited = s.exited := by
  cases h with
  | @renames output => cases output <;> rfl
  | _ => rfl

theorem call_calls {works : Bool} (h : call encoding request s works = some t) :
    Calls encoding request s (renamed s works) t := by
  unfold call at h
  unfold renamed
  cases happlication : s.application with
  | inspecting =>
    rw [happlication] at h
    obtain rfl := Option.some.inj h
    exact .inspects happlication
  | finished =>
    rw [happlication] at h
    cases h
  | failed message =>
    rw [happlication] at h
    cases h
  | publishing output next =>
    rw [happlication] at h
    cases next with
    | tryExists =>
      dsimp only at h ⊢
      split at h
      · obtain rfl := Option.some.inj h
        exact .fails _ happlication
      · split at h
        · obtain rfl := Option.some.inj h
          exact .fails _ happlication
        · obtain rfl := Option.some.inj h
          exact .finds happlication
    | create =>
      dsimp only at h ⊢
      split at h
      · obtain rfl := Option.some.inj h
        exact .creates happlication
      · obtain rfl := Option.some.inj h
        exact .fails _ happlication
    | write rest =>
      dsimp only at h ⊢
      split at h
      · obtain rfl := Option.some.inj h
        exact .writes happlication
      · obtain rfl := Option.some.inj h
        exact .undoes _ happlication
    | sync =>
      dsimp only at h ⊢
      split at h
      · obtain rfl := Option.some.inj h
        exact .syncs happlication
      · obtain rfl := Option.some.inj h
        exact .undoes _ happlication
    | rename =>
      dsimp only at h ⊢
      cases works with
      | false =>
        obtain rfl := Option.some.inj h
        exact .undoes _ happlication
      | true =>
        cases hfile : s.file output with
        | none =>
          rw [hfile] at h
          obtain rfl := Option.some.inj h
          exact .renames happlication hfile
        | some bytes =>
          rw [hfile] at h
          obtain rfl := Option.some.inj h
          exact .undoes _ happlication
    | remove failure =>
      dsimp only at h ⊢
      obtain rfl := Option.some.inj h
      exact .removes _ happlication

/-- What a step can do, and what the supervisor may find of it. -/
inductive Steps (encoding : Encoding) (request : Request) (s : System) : Event → System → Prop
  | call {works : Bool} {t : System} (halive : s.exited = none)
      (h : Calls encoding request s (renamed s works) t) : Steps encoding request s (.call works) t
  | wrote {output : Output} {rest : List UInt8} (count : ℕ) (halive : s.exited = none)
      (h : s.application = .publishing output (.write rest)) :
      Steps encoding request s (.wrote count) { s with
        temporary := s.temporary.map (· ++ rest.take count)
        application := .publishing output (.write (rest.drop count)) }
  | exit (status : ExitStatus) (halive : s.exited = none)
      (h : status.success = true → s.application = .finished) :
      Steps encoding request s (.exit status) { s with exited := some status }
  | poll (observation : Observation) (hrunning : ∀ result, s.supervisor ≠ .returned result) :
      Steps encoding request s (.poll observation) { s with
        supervisor := supervise request.kind request.token (s.view encoding) observation }

theorem step_steps {event : Event} {output : Unit}
    (h : s.step encoding request event = some (t, output)) : Steps encoding request s event t := by
  cases event with
  | call works =>
    rw [System.step, Option.ite_none_left_eq_some] at h
    obtain ⟨halive, hmap⟩ := h
    obtain ⟨t', hcall, heq⟩ := Option.map_eq_some_iff.mp hmap
    obtain ⟨rfl, -⟩ := Prod.mk.inj heq
    exact .call (by simpa using halive) (call_calls hcall)
  | wrote count =>
    rw [System.step] at h
    split at h
    · next halive happlication =>
      obtain ⟨rfl, -⟩ := Prod.mk.inj (Option.some.inj h)
      exact .wrote count halive happlication
    · cases h
  | exit status =>
    rw [System.step, Option.ite_none_right_eq_some] at h
    obtain ⟨hguard, heq⟩ := h
    obtain ⟨rfl, -⟩ := Prod.mk.inj (Option.some.inj heq)
    simp only [Bool.and_eq_true, Option.isNone_iff_eq_none, Bool.or_eq_true, Bool.not_eq_true',
      decide_eq_true_eq] at hguard
    refine .exit status hguard.1 fun hsuccess => hguard.2.resolve_left ?_
    simp [hsuccess]
  | poll observation =>
    rw [System.step] at h
    split at h
    · cases h
    · next hrunning =>
      obtain ⟨rfl, -⟩ := Prod.mk.inj (Option.some.inj h)
      exact .poll observation hrunning

/-! ### The application keeps its outputs whole -/

theorem Behind.next {output : Output} {at_ next : Publishing}
    (h : Behind s (.publishing output at_)) (hnext : next ≠ .remove none) :
    Behind s (.publishing output next) := by
  have hkept : output = .response → s.acknowledgement.isSome := by
    rintro rfl
    unfold Behind at h
    split at h <;> simp_all
  cases output with
  | acknowledgement =>
    unfold Behind
    split <;> simp_all
  | response =>
    unfold Behind
    split <;> simp_all

/-- Where no file changes, it is enough to look at the application. -/
theorem Kept.advance (h : Kept encoding request s) (hfile : ∀ output, t.file output = s.file output)
    (hexited : t.exited = s.exited) (hbehind : Behind t t.application)
    (htemporary : Temporary encoding request t t.application) : Kept encoding request t where
  whole output bytes hbytes := h.whole output bytes (hfile output ▸ hbytes)
  behind := hbehind
  temporary := htemporary
  exited status hstatus hsuccess := by
    have hresponse : t.response = s.response := hfile .response
    rw [hresponse]
    exact h.exited status (hexited ▸ hstatus) hsuccess

/-- What is renamed was written whole. -/
theorem Kept.renames {output : Output} (h : Kept encoding request s)
    (htemporary : s.temporary = some (bytesOf encoding request output))
    (hbehind : Behind s (.publishing output .rename)) :
    Kept encoding request ((s.publish output).goes (.publishing output (.remove none))) := by
  cases output with
  | acknowledgement =>
    refine ⟨fun output bytes hbytes => ?_, ?_, trivial, h.exited⟩
    · cases output with
      | acknowledgement => exact Option.some.inj (hbytes.symm.trans htemporary)
      | response => exact h.whole .response bytes hbytes
    · show s.temporary.isSome
      rw [htemporary]
      rfl
  | response =>
    have hresponse : s.temporary.isSome := by rw [htemporary]; rfl
    refine ⟨fun output bytes hbytes => ?_, ⟨hbehind, hresponse⟩, trivial, fun _ _ _ => hresponse⟩
    cases output with
    | acknowledgement => exact h.whole .acknowledgement bytes hbytes
    | response => exact Option.some.inj (hbytes.symm.trans htemporary)

theorem Kept.calls {shown : Option Output} (h : Kept encoding request s)
    (hcalls : Calls encoding request s shown t) : Kept encoding request t := by
  have hbehind := h.behind
  have htemporary := h.temporary
  cases hcalls with
  | fails => exact h.advance (fun _ => rfl) rfl trivial trivial
  | @undoes output next message happlication =>
    rw [happlication] at hbehind
    exact h.advance (fun _ => rfl) rfl (hbehind.next (by simp)) trivial
  | @finds output happlication =>
    rw [happlication] at hbehind
    exact h.advance (fun _ => rfl) rfl (hbehind.next (by simp)) trivial
  | @creates output happlication =>
    rw [happlication] at hbehind
    exact h.advance (fun output => by cases output <;> rfl) rfl (hbehind.next (by simp))
      ⟨[], rfl, rfl⟩
  | @writes output rest happlication =>
    rw [happlication] at hbehind htemporary
    obtain ⟨written, hwritten, hbytes⟩ := htemporary
    refine h.advance (fun output => by cases output <;> rfl) rfl (hbehind.next (by simp)) ?_
    show s.temporary.map (· ++ rest) = _
    rw [hwritten, ← hbytes]
    rfl
  | @syncs output happlication =>
    rw [happlication] at hbehind htemporary
    exact h.advance (fun _ => rfl) rfl (hbehind.next (by simp)) htemporary
  | @renames output happlication hfree =>
    rw [happlication] at hbehind htemporary
    exact h.renames htemporary hbehind
  | @removes output failure temporary happlication =>
    rw [happlication] at hbehind
    refine h.advance (fun output => by cases output <;> rfl) rfl ?_ ?_
    · cases failure with
      | some message => cases output <;> trivial
      | none => cases output <;> exact hbehind
    · cases failure <;> cases output <;> trivial
  | inspects happlication =>
    rw [happlication] at hbehind
    exact h.advance (fun _ => rfl) rfl hbehind trivial

theorem Kept.step {event : Event} (h : Kept encoding request s)
    (hstep : Steps encoding request s event t) : Kept encoding request t := by
  have hbehind := h.behind
  have htemporary := h.temporary
  cases hstep with
  | call halive hcalls => exact h.calls hcalls
  | @wrote output rest count halive happlication =>
    rw [happlication] at hbehind htemporary
    obtain ⟨written, hwritten, hbytes⟩ := htemporary
    refine h.advance (fun output => by cases output <;> rfl) rfl (hbehind.next (by simp)) ?_
    refine ⟨written ++ rest.take count, ?_, ?_⟩
    · show s.temporary.map (· ++ rest.take count) = _
      rw [hwritten]
      rfl
    · rw [List.append_assoc, List.take_append_drop, hbytes]
  | exit status halive hfinished =>
    refine ⟨h.whole, hbehind, htemporary, fun other hother hsuccess => ?_⟩
    obtain rfl : status = other := Option.some.inj hother
    rw [hfinished hsuccess] at hbehind
    exact hbehind.2
  | poll observation hrunning =>
    exact h.advance (fun output => by cases output <;> rfl) rfl hbehind htemporary

/-! ### The supervisor sees a handshake -/

/-- The publication of an output, as the supervisor finds it. -/
def publication (encoding : Encoding) (s : System) : Output → Inspection.Event
  | .acknowledgement =>
    .publishAcknowledgement (published encoding.readAcknowledgement (s.temporary.getD []))
  | .response => .publishResponse (published encoding.readEnvelope (s.temporary.getD []))

/-- What the handshake has of a step. -/
def label (encoding : Encoding) (s : System) : Event → Option (Inspection.Event × Unit)
  | .call works => (renamed s works).map fun output => (publication encoding s output, ())
  | .wrote _ => none
  | .exit status => some (.exit status, ())
  | .poll observation => some (.poll observation, ())

theorem Calls.hidden (h : Calls encoding request s none t) : t.view encoding = s.view encoding := by
  cases h <;> rfl

theorem Calls.shown {output : Output} (h : Calls encoding request s (some output) t)
    (halive : s.exited = none) (hkept : Kept encoding request s) :
    (s.view encoding).step request.kind request.token (publication encoding s output) =
      some (t.view encoding, ()) := by
  cases h with
  | renames happlication hfree =>
    have htemporary := hkept.temporary
    rw [happlication] at htemporary
    change s.temporary = some _ at htemporary
    cases output with
    | acknowledgement =>
      have hnone : s.acknowledgement = none := hfree
      simp [publication, Handshake.step, System.view, System.publish, System.goes, halive, hnone,
        htemporary]
    | response =>
      have hnone : s.response = none := hfree
      simp [publication, Handshake.step, System.view, System.publish, System.goes, halive, hnone,
        htemporary]

/-- Both sides together do what a supervisor and a child may do that publishes whole files. -/
theorem simulates (encoding : Encoding) (request : Request) :
    Machine.Simulates .new (System.step encoding request) (Kept encoding request)
      (System.view encoding) (label encoding) (Handshake.step request.kind request.token) where
  start := kept_new
  kept _ _ _ _ hkept hstep := hkept.step (step_steps hstep)
  hidden s event t output hkept hstep hlabel := by
    cases step_steps hstep with
    | @call works _ halive hcalls =>
      rw [Option.map_eq_none_iff.mp hlabel] at hcalls
      exact hcalls.hidden
    | wrote => rfl
    | exit => cases hlabel
    | poll => cases hlabel
  shown s event t output event' output' hkept hstep hlabel := by
    cases step_steps hstep with
    | @call works _ halive hcalls =>
      obtain ⟨renamed, hrenamed, heq⟩ := Option.map_eq_some_iff.mp hlabel
      obtain ⟨rfl, rfl⟩ := Prod.mk.inj heq
      rw [hrenamed] at hcalls
      exact hcalls.shown halive hkept
    | wrote => cases hlabel
    | exit status halive =>
      obtain ⟨rfl, rfl⟩ := Prod.mk.inj (Option.some.inj hlabel)
      simp [Handshake.step, System.view, halive]
    | poll observation hrunning =>
      obtain ⟨rfl, rfl⟩ := Prod.mk.inj (Option.some.inj hlabel)
      rw [Handshake.step]
      split
      · next result hreturned => exact absurd hreturned (hrunning result)
      · rfl

/-! ### What the supervisor returns -/

/-- What keeps the supervisor from an answer: a call that fails, a process that has ended, or the
clock. -/
inductive Excuse (exited : Option ExitStatus) : CliError → Prop
  | unread (reason : String) : Excuse exited
      { inspectionError "could not read private inspection output" with source := some reason }
  | unobserved (reason : String) : Excuse exited
      { inspectionError "could not observe the inspection application" with source := some reason }
  | ended (status : ExitStatus) (h : exited = some status) : Excuse exited (inspectionError
      ("the application exited before completing private inspection (" ++ status.display ++
        "); v0.7 inspection requires the standard Mads::run::<AppModule>() entry point"))
  | unsuccessful (status : ExitStatus) (h : exited = some status) (hfails : status.success = false) :
      Excuse exited (inspectionError
        ("the application exited unsuccessfully after private inspection (" ++ status.display ++ ")"))
  | unacknowledged : Excuse exited (inspectionError
      "the application did not acknowledge the inspection request in time; v0.7 inspection requires the standard Mads::run::<AppModule>() entry point")
  | unanswered : Excuse exited
      (inspectionError "the application did not return an inspection report in time")
  | unended : Excuse exited
      (inspectionError "the application did not exit after private inspection in time")

/-- Both files, where they are there, hold what was written for the request. -/
structure Faithful (request : Request) (handshake : Handshake) : Prop where
  acknowledgement : ∀ file, handshake.acknowledgement = some file →
    file = .json request.acknowledgement
  response : ∀ file, handshake.response = some file → file = .json request.envelope

theorem Kept.faithful (h : Kept encoding request s) (hround : encoding.RoundTrips request) :
    Faithful request (s.view encoding) where
  acknowledgement file hfile := by
    obtain ⟨bytes, hbytes, rfl⟩ := Option.map_eq_some_iff.mp hfile
    rw [h.whole .acknowledgement bytes hbytes, bytesOf, published, hround.acknowledgement]
  response file hfile := by
    obtain ⟨bytes, hbytes, rfl⟩ := Option.map_eq_some_iff.mp hfile
    rw [h.whole .response bytes hbytes, bytesOf, published, hround.envelope]

theorem readJson_excuse {α : Type} {file : Option (Published α)} {failure : Option String}
    {exited : Option ExitStatus} {error : CliError} (hfile : ∀ reason, file ≠ some (.malformed reason))
    (h : readJson file failure = .error error) : Excuse exited error := by
  unfold readJson at h
  split at h
  · obtain rfl := Except.error.inj h
    exact .unread _
  · obtain rfl := Except.error.inj h
    exact .unread _
  · next reason => exact absurd rfl (hfile reason)
  · cases h

theorem tryWait_excuse {exited exited' : Option ExitStatus} {failure : Option String}
    {error : CliError} (h : tryWait exited failure = .error error) : Excuse exited' error := by
  unfold tryWait at h
  split at h
  · obtain rfl := Except.error.inj h
    exact .unobserved _
  · cases h

theorem ensureChildIsRunning_excuse {exited : Option ExitStatus} {failure : Option String}
    {error : CliError} (h : ensureChildIsRunning exited failure = .error error) :
    Excuse exited error := by
  cases failure with
  | some reason =>
    obtain rfl := Except.error.inj h
    exact .unobserved reason
  | none =>
    cases exited with
    | none => cases h
    | some status =>
      obtain rfl := Except.error.inj h
      exact .ended status rfl

theorem supervise_excuse {handshake : Handshake} {observation : Observation} {error : CliError}
    (hfaithful : Faithful request handshake)
    (hrunning : ∀ result, handshake.supervisor ≠ .returned result)
    (h : supervise request.kind request.token handshake observation = .returned (.error error)) :
    Excuse handshake.exited error := by
  unfold supervise at h
  cases hpc : handshake.supervisor with
  | acknowledgementExists =>
    rw [hpc] at h
    dsimp only at h
    split at h <;> cases h
  | acknowledgementRead =>
    rw [hpc] at h
    dsimp only at h
    split at h
    · next hread =>
      cases h
      refine readJson_excuse (fun reason hfile => ?_) hread
      cases hfaithful.acknowledgement _ hfile
    · next acknowledgement hread =>
      cases hfaithful.acknowledgement _ (readJson_eq_ok.mp hread).2
      simp [Request.acknowledgement] at h
  | acknowledgementAlive =>
    rw [hpc] at h
    dsimp only at h
    split at h
    · next halive =>
      cases h
      exact ensureChildIsRunning_excuse halive
    · cases h
  | acknowledgementDeadline =>
    rw [hpc] at h
    dsimp only at h
    split at h
    · cases h
      exact .unacknowledged
    · cases h
  | responseExists =>
    rw [hpc] at h
    dsimp only at h
    split at h <;> cases h
  | responseRead =>
    rw [hpc] at h
    dsimp only at h
    split at h
    · next hread =>
      cases h
      refine readJson_excuse (fun reason hfile => ?_) hread
      cases hfaithful.response _ hfile
    · next envelope hread =>
      cases hfaithful.response _ (readJson_eq_ok.mp hread).2
      simp [Request.envelope, request.report_kind] at h
  | responseAlive =>
    rw [hpc] at h
    dsimp only at h
    split at h
    · next halive =>
      cases h
      exact ensureChildIsRunning_excuse halive
    · cases h
  | responseDeadline =>
    rw [hpc] at h
    dsimp only at h
    split at h
    · cases h
      exact .unanswered
    · cases h
  | exitWait found =>
    rw [hpc] at h
    dsimp only at h
    cases hwait : tryWait handshake.exited observation.failure with
    | error failure =>
      rw [hwait] at h
      cases h
      exact tryWait_excuse hwait
    | ok status =>
      rw [hwait] at h
      obtain ⟨-, hexited⟩ := tryWait_eq_ok.mp hwait
      cases status with
      | none => cases h
      | some status =>
        dsimp only at h
        split at h
        · cases h
        · next hfails =>
          cases h
          exact .unsuccessful status hexited (Bool.eq_false_iff.mpr hfails)
  | exitDeadline found =>
    rw [hpc] at h
    dsimp only at h
    split at h
    · cases h
      exact .unended
    · cases h
  | returned result => exact absurd hpc (hrunning result)

theorem Excuse.mono {exited exited' : Option ExitStatus} {error : CliError}
    (h : Excuse exited error) (hmono : ∀ status, exited = some status → exited' = some status) :
    Excuse exited' error := by
  cases h with
  | unread reason => exact .unread reason
  | unobserved reason => exact .unobserved reason
  | ended status h => exact .ended status (hmono status h)
  | unsuccessful status h hfails => exact .unsuccessful status (hmono status h) hfails
  | unacknowledged => exact .unacknowledged
  | unanswered => exact .unanswered
  | unended => exact .unended

/-- The supervisor has an excuse where it returns no report. -/
def Excused (s : System) : Prop :=
  ∀ error, s.supervisor = .returned (.error error) → Excuse s.exited error

theorem Excused.step {event : Event} (h : Excused s) (hkept : Kept encoding request s)
    (hround : encoding.RoundTrips request) (hstep : Steps encoding request s event t) :
    Excused t := by
  intro error hreturned
  cases hstep with
  | call halive hcalls =>
    rw [hcalls.exited_eq]
    exact h error (hcalls.supervisor_eq ▸ hreturned)
  | wrote => exact h error hreturned
  | exit status halive => exact (h error hreturned).mono fun _ hsome => by simp [halive] at hsome
  | poll observation hrunning => exact supervise_excuse (hkept.faithful hround) hrunning hreturned

/-- In every order of the calls of both sides, whatever fails and whenever the process ends: a report
that is returned is the one that the application has made for this request, and the application
ended well. Where none is returned, a call has failed, the process has ended or time has run out; no
output is ever read that is half written or meant for another request. -/
theorem Reaches.answer_sound {log : List (Machine.Entry System Event Unit)}
    (hround : encoding.RoundTrips request) (h : Reaches encoding request s log) :
    (∀ found, s.supervisor = .returned (.ok found) → found = request.report ∧
      ∃ status, s.exited = some status ∧ status.success = true) ∧
    ∀ error, s.supervisor = .returned (.error error) → Excuse s.exited error := by
  obtain ⟨hkept, hview⟩ := (simulates encoding request).reaches h
  constructor
  · intro found hreturned
    have hseen := reaches_seen hview
    have hsupervisor : (s.view encoding).supervisor = .returned (.ok found) := hreturned
    rw [hsupervisor] at hseen
    obtain ⟨-, hreported, hexited⟩ := hseen
    have hwritten := (hkept.faithful hround).response _ hreported.1
    cases hwritten
    exact ⟨rfl, hexited⟩
  · have hinvariant : Kept encoding request s ∧ Excused s := by
      refine Machine.Reaches.invariant (P := fun s _ => Kept encoding request s ∧ Excused s) ?_ ?_ h
      · exact ⟨kept_new, fun error hreturned => by cases hreturned⟩
      · intro s _ event t output _ hinvariant hstep
        have hsteps := step_steps hstep
        exact ⟨hinvariant.1.step hsteps, hinvariant.2.step hinvariant.1 hround hsteps⟩
    exact hinvariant.2

section Sample

def sampleReport : InspectionReport where
  kind := .doctor
  evidence := "\"failed\":false"

def sampleRequest : Request := ⟨.doctor, "4711-1", sampleReport, rfl⟩

def acknowledgementText (acknowledgement : InspectionAcknowledgement) : String :=
  "\x7b\"protocol_version\":" ++ toString acknowledgement.protocolVersion ++ ",\"token\":\"" ++
    acknowledgement.token ++ "\"\x7d"

def envelopeText (envelope : InspectionEnvelope) : String :=
  "\x7b\"protocol_version\":" ++ toString envelope.protocolVersion ++ ",\"token\":\"" ++
    envelope.token ++ "\",\"report\":\x7b\"kind\":\"doctor\"," ++ envelope.report.evidence ++
      "\x7d\x7d"

/-- The texts of the sample, and what is read of them. -/
def sampleEncoding : Encoding where
  acknowledgement acknowledgement := Paths.osStr (acknowledgementText acknowledgement)
  readAcknowledgement bytes :=
    if bytes = Paths.osStr (acknowledgementText sampleRequest.acknowledgement) then
      .ok sampleRequest.acknowledgement
    else .error "EOF while parsing a value"
  envelope envelope := Paths.osStr (envelopeText envelope)
  readEnvelope bytes :=
    if bytes = Paths.osStr (envelopeText sampleRequest.envelope) then .ok sampleRequest.envelope
    else .error "EOF while parsing a value"

theorem sampleEncoding_roundTrips : sampleEncoding.RoundTrips sampleRequest where
  acknowledgement := by simp only [sampleEncoding, if_true]
  envelope := by simp only [sampleEncoding, if_true]

/-- The supervisor looks while the acknowledgement is half written, and again when it is there. -/
def sampleEvents : List Event :=
  let look : Event := .poll ⟨none, false⟩
  let calls (count : ℕ) : List Event := List.replicate count (.call true)
  calls 2 ++ [.wrote 5, look, look, look] ++ calls 3 ++ [look, look] ++ calls 8 ++
    [.exit ⟨true, "exit status: 0"⟩, look, look, look]

theorem Reaches.answer_sound_sample : ∃ s log, Reaches sampleEncoding sampleRequest s log ∧
    s.supervisor = .returned (.ok sampleReport) ∧
      ∃ status, s.exited = some status ∧ status.success = true := by
  obtain ⟨s, log, hrun, hsupervisor⟩ : ∃ s log,
      Machine.run (System.step sampleEncoding sampleRequest) .new sampleEvents = some (s, log) ∧
        s.supervisor = .returned (.ok sampleReport) := ⟨_, _, rfl, rfl⟩
  have hreaches : Reaches sampleEncoding sampleRequest s log := Machine.reaches_of_run hrun
  obtain ⟨-, hexited⟩ := (Reaches.answer_sound sampleEncoding_roundTrips hreaches).1 _ hsupervisor
  exact ⟨s, log, hreaches, hsupervisor, hexited⟩

end Sample

end InspectionProtocol

end Mads
