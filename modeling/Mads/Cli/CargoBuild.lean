import Mathlib.Algebra.GroupWithZero.Nat
import Mads.Cli.Project
import Mads.Library.LastWins

/-!
# Building the application with Cargo

Cargo reports line by line. Waiting for it may be given up between two lines and taken up again.
-/

namespace Mads

open Paths

namespace Cargo

def MADS201 : String := "MADS201"

/-- A message of Cargo's: an artifact, what the compiler says, or the end of the build. -/
inductive Message where
  | compilerArtifact (packageId targetName : String) (executable : Option Path)
  | compilerMessage (rendered : Option String)
  | buildFinished (success : Bool)
  | other
  deriving DecidableEq, Repr

/-- A line that could not be read, one that is no message, or a message. -/
inductive Line where
  | unreadable (reason : String)
  | malformed (reason : String)
  | message (message : Message)
  deriving DecidableEq, Repr

structure BuiltApplication where
  target : ResolvedApplication
  executable : Path
  deriving DecidableEq, Repr

def buildError (message : String) : CliError where
  code := MADS201
  title := "Cargo build failed"
  message := message

structure ArtifactCollector where
  executable : Option Path := none
  successful : Bool := false
  deriving DecidableEq, Repr

def matchingExecutable (target : ResolvedApplication) (packageId targetName : String)
    (executable : Option Path) : Option Path :=
  if packageId = target.package.packageId ∧ targetName = target.binaryName then executable else none

namespace ArtifactCollector

def process (target : ResolvedApplication) (collector : ArtifactCollector) :
    Message → ArtifactCollector
  | .compilerArtifact packageId targetName executable =>
    match matchingExecutable target packageId targetName executable with
    | some path => { collector with executable := some path }
    | none => collector
  | .buildFinished success => { collector with successful := success }
  | .compilerMessage _ | .other => collector

def finish (collector : ArtifactCollector) (target : ResolvedApplication) :
    Except CliError BuiltApplication :=
  if !collector.successful then .error (buildError "Cargo did not report a successful build")
  else
    match collector.executable with
    | none => .error (buildError "Cargo did not produce the selected application binary")
    | some executable => .ok ⟨target, executable⟩

end ArtifactCollector

/-- A build in progress: the lines to come and how the process will end, what was collected so far,
and what was shown of the compiler. -/
structure CargoBuild where
  target : ResolvedApplication
  lines : List Line
  status : Except String Bool
  collector : ArtifactCollector := ⟨none, false⟩
  shown : List String := []

namespace CargoBuild

def start (target : ResolvedApplication) (lines : List Line) (status : Except String Bool) :
    CargoBuild := ⟨target, lines, status, ⟨none, false⟩, []⟩

def rendered : Message → Option String
  | .compilerMessage text => text
  | _ => none

/-- What is done with a message. -/
def take (build : CargoBuild) (message : Message) : CargoBuild :=
  { build with
    collector := build.collector.process build.target message
    shown := build.shown ++ (rendered message).toList }

/-- The end of `wait`, after the last line. -/
def finish (build : CargoBuild) : Except CliError BuiltApplication :=
  match build.status with
  | .error reason =>
    .error { buildError "could not wait for Cargo to finish" with source := some reason }
  | .ok false => .error (buildError "Cargo could not build the selected application")
  | .ok true => build.collector.finish build.target

/-- One line, or the end if there is none. -/
def poll (build : CargoBuild) : CargoBuild × Option (Except CliError BuiltApplication) :=
  match build.lines with
  | [] => ({ build with collector := ⟨none, false⟩ }, some build.finish)
  | .unreadable reason :: rest =>
    ({ build with lines := rest },
      some (.error { buildError "could not read Cargo build output" with source := some reason }))
  | .malformed reason :: rest =>
    ({ build with lines := rest },
      some (.error { buildError "Cargo produced malformed build output" with
        source := some reason }))
  | .message message :: rest => ({ build with lines := rest }.take message, none)

/-- `wait`, given up after so many lines. It returns after the last one. -/
def waitFor : ℕ → CargoBuild → CargoBuild × Option (Except CliError BuiltApplication)
  | 0, build => (build, none)
  | lines + 1, build =>
    match build.poll with
    | (after, some result) => (after, some result)
    | (after, none) => waitFor lines after

/-- `wait` is called once for each entry, and given up after so many lines. -/
def waits (build : CargoBuild) (patience : List ℕ) :
    CargoBuild × Option (Except CliError BuiltApplication) :=
  match patience with
  | [] => (build, none)
  | lines :: rest =>
    match waitFor lines build with
    | (after, some result) => (after, some result)
    | (after, none) => waits after rest

end CargoBuild

/-- `collect_artifact`: all messages at once. -/
def collectArtifact (target : ResolvedApplication) (messages : List Message) :
    Except CliError BuiltApplication :=
  (messages.foldl (ArtifactCollector.process target) ⟨none, false⟩).finish target

/-! ### What is collected -/

/-- What a message says of the end of the build. -/
def finished : Message → Option Bool
  | .buildFinished success => some success
  | _ => none

/-- The executable that a message reports of the selected binary. -/
def selected (target : ResolvedApplication) : Message → Option Path
  | .compilerArtifact packageId targetName executable =>
    matchingExecutable target packageId targetName executable
  | _ => none

variable {target : ResolvedApplication} {messages : List Message} {built : BuiltApplication}

theorem executable_foldl {executable : Path} :
    (messages.foldl (ArtifactCollector.process target) ⟨none, false⟩).executable =
      some executable ↔ LastWins (selected target) messages executable := by
  refine LastWins.iff_foldl _ ArtifactCollector.executable rfl fun collector message => ?_
  cases message with
  | compilerArtifact packageId targetName executable =>
    rw [ArtifactCollector.process, selected]
    cases matchingExecutable target packageId targetName executable <;> rfl
  | compilerMessage => rfl
  | buildFinished => rfl
  | other => rfl

theorem successful_foldl :
    (messages.foldl (ArtifactCollector.process target) ⟨none, false⟩).successful = true ↔
      LastWins finished messages true := by
  induction messages using List.reverseRecOn with
  | nil => exact iff_of_false nofun LastWins.not_nil
  | append_singleton messages message ih =>
    rw [List.foldl_append, List.foldl_cons, List.foldl_nil, LastWins.concat_iff, ← ih]
    cases message with
    | compilerArtifact packageId targetName executable =>
      simp only [ArtifactCollector.process, finished]
      cases matchingExecutable target packageId targetName executable <;> simp
    | compilerMessage => simp [ArtifactCollector.process, finished]
    | buildFinished success => simp [ArtifactCollector.process, finished]
    | other => simp [ArtifactCollector.process, finished]

theorem collectArtifact_eq_ok : collectArtifact target messages = .ok built ↔
    built.target = target ∧ LastWins finished messages true ∧
      LastWins (selected target) messages built.executable := by
  rw [← successful_foldl, ← executable_foldl, collectArtifact, ArtifactCollector.finish]
  generalize messages.foldl (ArtifactCollector.process target) ⟨none, false⟩ = collector
  obtain ⟨executable, successful⟩ := collector
  obtain ⟨builtTarget, builtExecutable⟩ := built
  cases successful with
  | false => simp
  | true =>
    cases executable with
    | none => simp
    | some executable => simp [eq_comm]

/-! ### Waiting and giving up -/

namespace CargoBuild

/-- The messages that were taken, and what is left. -/
structure Took (target : ResolvedApplication) (lines : List Line) (status : Except String Bool)
    (build : CargoBuild) (messages : List Message) : Prop where
  lines_eq : lines = messages.map .message ++ build.lines
  target_eq : build.target = target
  status_eq : build.status = status
  collected : build.collector = messages.foldl (ArtifactCollector.process target) ⟨none, false⟩
  shown : build.shown = messages.filterMap rendered

variable {lines : List Line} {status : Except String Bool} {build after : CargoBuild}
  {result : Except CliError BuiltApplication}

theorem took_start : Took target lines status (start target lines status) [] :=
  ⟨rfl, rfl, rfl, rfl, rfl⟩

theorem Took.poll_none (h : Took target lines status build messages)
    (hpoll : build.poll = (after, none)) :
    ∃ message, Took target lines status after (messages ++ [message]) := by
  unfold poll at hpoll
  split at hpoll
  · cases hpoll
  · cases hpoll
  · cases hpoll
  · next message rest hlines =>
    obtain ⟨rfl, -⟩ := Prod.mk.inj hpoll
    refine ⟨message, ?_, h.target_eq, h.status_eq, ?_, ?_⟩
    · rw [h.lines_eq, hlines]
      simp [take]
    · show build.collector.process build.target message = _
      rw [h.collected, h.target_eq, List.foldl_append, List.foldl_cons, List.foldl_nil]
    · show build.shown ++ (rendered message).toList = _
      rw [h.shown, List.filterMap_append]
      cases hrendered : rendered message <;> simp [hrendered]

/-- What a wait answers, whatever was waited before: an application exactly if all lines are messages,
Cargo ends well and the messages have it; and every message up to the first other line was shown. -/
structure Answers (target : ResolvedApplication) (lines : List Line) (status : Except String Bool)
    (after : CargoBuild) (result : Except CliError BuiltApplication) : Prop where
  ok_iff : ∀ built, result = .ok built ↔ status = .ok true ∧ ∃ messages : List Message,
    lines = messages.map .message ∧ collectArtifact target messages = .ok built
  shown : ∃ (messages : List Message) (rest : List Line),
    lines = messages.map .message ++ rest ∧ after.shown = messages.filterMap rendered ∧
      ∀ message next, rest ≠ .message message :: next

/-- With a line that is no message there is no application. -/
theorem Took.answers_of_line {line : Line} {rest : List Line} {error : CliError}
    (h : Took target lines status build messages) (hlines : build.lines = line :: rest)
    (hline : ∀ message, line ≠ .message message) (hshown : after.shown = build.shown) :
    Answers target lines status after (.error error) where
  ok_iff built := by
    refine iff_of_false (by simp) ?_
    rintro ⟨-, all, hall, -⟩
    have hmem : line ∈ all.map Line.message := by
      rw [← hall, h.lines_eq, hlines]
      simp
    obtain ⟨message, -, heq⟩ := List.mem_map.mp hmem
    exact hline message heq.symm
  shown := ⟨messages, line :: rest, hlines ▸ h.lines_eq, hshown.trans h.shown,
    fun message next heq => hline message (List.cons.inj heq).1⟩

theorem Took.poll_some (h : Took target lines status build messages)
    (hpoll : build.poll = (after, some result)) : Answers target lines status after result := by
  unfold poll at hpoll
  split at hpoll
  · next hlines =>
    obtain ⟨rfl, hresult⟩ := Prod.mk.inj hpoll
    obtain rfl := Option.some.inj hresult
    have hall : lines = messages.map .message := by rw [h.lines_eq, hlines, List.append_nil]
    refine ⟨fun built => ?_, messages, [], by simp [hall], h.shown, by simp⟩
    have hmessages (other : List Message) : lines = other.map .message ↔ other = messages := by
      rw [hall]
      exact ⟨fun heq => (List.map_injective_iff.mpr (fun _ _ => Line.message.inj) heq).symm,
        fun heq => heq ▸ rfl⟩
    simp only [hmessages, exists_eq_left]
    rw [finish, h.status_eq, h.collected, h.target_eq, collectArtifact]
    split <;> simp
  · next reason rest hlines =>
    obtain ⟨rfl, hresult⟩ := Prod.mk.inj hpoll
    obtain rfl := Option.some.inj hresult
    exact h.answers_of_line hlines (by simp) rfl
  · next reason rest hlines =>
    obtain ⟨rfl, hresult⟩ := Prod.mk.inj hpoll
    obtain rfl := Option.some.inj hresult
    exact h.answers_of_line hlines (by simp) rfl
  · cases hpoll

theorem Took.waitFor_none {count : ℕ} (h : Took target lines status build messages)
    (hwait : waitFor count build = (after, none)) :
    ∃ more, Took target lines status after (messages ++ more) ∧ more.length = count := by
  induction count generalizing build messages with
  | zero =>
    obtain ⟨rfl, -⟩ := Prod.mk.inj hwait
    exact ⟨[], by rwa [List.append_nil], rfl⟩
  | succ count ih =>
    rw [waitFor] at hwait
    split at hwait
    · cases hwait
    · next next hpoll =>
      obtain ⟨message, hnext⟩ := h.poll_none hpoll
      obtain ⟨more, hmore, hlength⟩ := ih hnext hwait
      refine ⟨message :: more, ?_, by rw [List.length_cons, hlength]⟩
      rwa [List.append_assoc, List.singleton_append] at hmore

theorem Took.waitFor_some {count : ℕ} (h : Took target lines status build messages)
    (hwait : waitFor count build = (after, some result)) :
    Answers target lines status after result := by
  induction count generalizing build messages with
  | zero => cases hwait
  | succ count ih =>
    rw [waitFor] at hwait
    split at hwait
    · next final answer hpoll =>
      obtain ⟨rfl, hresult⟩ := Prod.mk.inj hwait
      obtain rfl := Option.some.inj hresult
      exact h.poll_some hpoll
    · next next hpoll =>
      obtain ⟨message, hnext⟩ := h.poll_none hpoll
      exact ih hnext hwait

/-- To wait for some lines, give up, and wait for more is to wait for all of them. -/
theorem waitFor_add (count more : ℕ) (build : CargoBuild) :
    waitFor (count + more) build =
      match waitFor count build with
      | (after, some result) => (after, some result)
      | (after, none) => waitFor more after := by
  induction count generalizing build with
  | zero => rw [Nat.zero_add, waitFor]
  | succ count ih =>
    rw [Nat.add_right_comm, waitFor, waitFor]
    split
    · rfl
    · exact ih _

theorem waits_eq_waitFor (patience : List ℕ) (build : CargoBuild) :
    build.waits patience = waitFor patience.sum build := by
  induction patience generalizing build with
  | nil => rfl
  | cons count patience ih =>
    rw [List.sum_cons, waitFor_add, waits]
    split
    · rfl
    · exact ih _

/-- However often waiting is given up and taken up again, it goes as one wait of the same length,
with the same answer or error; no message of the compiler is lost or shown twice; and whoever waits
for more lines than Cargo writes gets an answer. The application is the last one reported for exactly
this package and this binary, and there is one only if Cargo's last word was a success. -/
theorem waits_answers (target : ResolvedApplication) (lines : List Line)
    (status : Except String Bool) (patience : List ℕ) :
    (start target lines status).waits patience =
        waitFor patience.sum (start target lines status) ∧
    (∀ after result, (start target lines status).waits patience = (after, some result) →
      (∀ built, result = .ok built ↔ built.target = target ∧ status = .ok true ∧
        ∃ messages : List Message, lines = messages.map .message ∧
          LastWins finished messages true ∧
          LastWins (selected target) messages built.executable) ∧
      ∃ (messages : List Message) (rest : List Line), lines = messages.map .message ++ rest ∧
        after.shown = messages.filterMap rendered ∧
          ∀ message next, rest ≠ .message message :: next) ∧
    (lines.length < patience.sum →
      ∃ after result, (start target lines status).waits patience = (after, some result)) := by
  rw [waits_eq_waitFor]
  refine ⟨rfl, fun after result hwaits => ?_, fun hlength => ?_⟩
  · have hanswers := took_start.waitFor_some hwaits
    refine ⟨fun built => ?_, hanswers.shown⟩
    rw [hanswers.ok_iff]
    simp only [collectArtifact_eq_ok]
    constructor
    · rintro ⟨hstatus, messages, hlines, htarget, hfinished, hselected⟩
      exact ⟨htarget, hstatus, messages, hlines, hfinished, hselected⟩
    · rintro ⟨htarget, hstatus, messages, hlines, hfinished, hselected⟩
      exact ⟨hstatus, messages, hlines, htarget, hfinished, hselected⟩
  · obtain ⟨⟨after, answer⟩, hwaits⟩ :
      ∃ answered, waitFor patience.sum (start target lines status) = answered := ⟨_, rfl⟩
    cases answer with
    | none =>
      obtain ⟨more, htook, hmore⟩ := took_start.waitFor_none hwaits
      have hlines := congrArg List.length htook.lines_eq
      simp only [List.nil_append, List.length_append, List.length_map] at hlines
      omega
    | some result => exact ⟨after, result, hwaits⟩

end CargoBuild

end Cargo

end Mads
