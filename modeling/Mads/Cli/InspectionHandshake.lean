import Mads.Cli.Inspection

/-!
# When the handshake of a good child succeeds

A child that publishes a good acknowledgement, then a good report, and then exits with success is
believed in every order of steps but one: where it exits after the supervisor has missed a file
and before it looks at the process.
-/

namespace Mads

namespace Inspection

/-- The log of a run. -/
abbrev Log := List (Machine.Entry Handshake Event Unit)

variable {kind : InspectionKind} {token : String} {report : InspectionReport}

/-- The child publishes a good acknowledgement, then a good report, then exits with success; the
supervisor's calls work, and in time. -/
def Orderly (kind : InspectionKind) (token : String) (report : InspectionReport)
    (entry : Machine.Entry Handshake Event Unit) : Prop :=
  match entry.event with
  | .publishAcknowledgement file => file = .json ⟨INSPECTION_PROTOCOL_VERSION, token⟩
  | .publishResponse file =>
    file = .json ⟨INSPECTION_PROTOCOL_VERSION, token, report⟩ ∧ report.kind = kind ∧
      entry.before.acknowledgement.isSome
  | .exit status => status.success = true ∧ entry.before.response.isSome
  | .poll observation => observation.failure = none ∧ observation.late = false

instance (entry : Machine.Entry Handshake Event Unit) :
    Decidable (Orderly kind token report entry) :=
  match entry with
  | ⟨_, .publishAcknowledgement _, _⟩ => inferInstanceAs (Decidable (_ = _))
  | ⟨_, .publishResponse _, _⟩ => inferInstanceAs (Decidable (_ ∧ _ ∧ _))
  | ⟨_, .exit _, _⟩ => inferInstanceAs (Decidable (_ ∧ _))
  | ⟨_, .poll _, _⟩ => inferInstanceAs (Decidable (_ ∧ _))

/-- A file was missing, and the supervisor is about to look at the process. -/
def Supervisor.looks : Supervisor → Bool
  | .acknowledgementAlive => true
  | .responseAlive => true
  | _ => false

def isExit : Event → Bool
  | .exit _ => true
  | _ => false

/-- The child exited between a look for a file and the look at the process. -/
def Overtaken (log : Log) : Prop :=
  ∃ entry ∈ log, isExit entry.event = true ∧ entry.before.supervisor.looks = true

theorem overtaken_concat {log : Log} {entry : Machine.Entry Handshake Event Unit} :
    Overtaken (log ++ [entry]) ↔
      Overtaken log ∨ isExit entry.event = true ∧ entry.before.supervisor.looks = true := by
  simp only [Overtaken, List.mem_append, List.mem_singleton, or_and_right, exists_or,
    exists_eq_left]

/-- What the run of a good child has led to, where the supervisor is at a call. -/
def Answers (report : InspectionReport) (log : Log) (handshake : Handshake) : Supervisor → Prop
  | .acknowledgementExists => ¬ Overtaken log
  | .acknowledgementRead => ¬ Overtaken log ∧ handshake.acknowledgement.isSome
  | .acknowledgementAlive => Overtaken log ↔ handshake.exited.isSome
  | .acknowledgementDeadline => ¬ Overtaken log
  | .responseExists => ¬ Overtaken log
  | .responseRead => ¬ Overtaken log ∧ handshake.response.isSome
  | .responseAlive => Overtaken log ↔ handshake.exited.isSome
  | .responseDeadline => ¬ Overtaken log
  | .exitWait found => ¬ Overtaken log ∧ found = report
  | .exitDeadline found => ¬ Overtaken log ∧ found = report
  | .returned (.ok found) => ¬ Overtaken log ∧ found = report
  | .returned (.error _) => Overtaken log

/-- The files and the exit of a good child. -/
structure Good (kind : InspectionKind) (token : String) (report : InspectionReport)
    (handshake : Handshake) : Prop where
  acknowledgement (file : Published InspectionAcknowledgement) :
    handshake.acknowledgement = some file → file = .json ⟨INSPECTION_PROTOCOL_VERSION, token⟩
  response (file : Published InspectionEnvelope) : handshake.response = some file →
    file = .json ⟨INSPECTION_PROTOCOL_VERSION, token, report⟩ ∧ report.kind = kind ∧
      handshake.acknowledgement.isSome
  exited (status : ExitStatus) : handshake.exited = some status →
    status.success = true ∧ handshake.response.isSome

theorem Good.acknowledgement_of_exited {s : Handshake} (h : Good kind token report s)
    (hexited : s.exited.isSome) : s.acknowledgement.isSome := by
  obtain ⟨status, hstatus⟩ := Option.isSome_iff_exists.mp hexited
  obtain ⟨file, hfile⟩ := Option.isSome_iff_exists.mp (h.exited status hstatus).2
  exact (h.response file hfile).2.2

theorem Good.response_of_exited {s : Handshake} (h : Good kind token report s)
    (hexited : s.exited.isSome) : s.response.isSome := by
  obtain ⟨status, hstatus⟩ := Option.isSome_iff_exists.mp hexited
  exact (h.exited status hstatus).2

/-- Where a call leads that works, and in time, on the files of a good child. -/
inductive Leads (report : InspectionReport) (s : Handshake) : Supervisor → Supervisor → Prop
  | acknowledgementThere (h : s.acknowledgement.isSome) :
    Leads report s .acknowledgementExists .acknowledgementRead
  | acknowledgementMissing (h : s.acknowledgement = none) :
    Leads report s .acknowledgementExists .acknowledgementAlive
  | acknowledgementLost (h : s.acknowledgement = none) (error : CliError) :
    Leads report s .acknowledgementRead (.returned (.error error))
  | acknowledgementRead : Leads report s .acknowledgementRead .responseExists
  | acknowledgementExited (h : s.exited.isSome) (error : CliError) :
    Leads report s .acknowledgementAlive (.returned (.error error))
  | acknowledgementAlive (h : s.exited = none) :
    Leads report s .acknowledgementAlive .acknowledgementDeadline
  | acknowledgementInTime : Leads report s .acknowledgementDeadline .acknowledgementExists
  | responseThere (h : s.response.isSome) : Leads report s .responseExists .responseRead
  | responseMissing (h : s.response = none) : Leads report s .responseExists .responseAlive
  | responseLost (h : s.response = none) (error : CliError) :
    Leads report s .responseRead (.returned (.error error))
  | responseRead : Leads report s .responseRead (.exitWait report)
  | responseExited (h : s.exited.isSome) (error : CliError) :
    Leads report s .responseAlive (.returned (.error error))
  | responseAlive (h : s.exited = none) : Leads report s .responseAlive .responseDeadline
  | responseInTime : Leads report s .responseDeadline .responseExists
  | exitSeen (h : s.exited.isSome) (found : InspectionReport) :
    Leads report s (.exitWait found) (.returned (.ok found))
  | exitMissing (h : s.exited = none) (found : InspectionReport) :
    Leads report s (.exitWait found) (.exitDeadline found)
  | exitInTime (found : InspectionReport) : Leads report s (.exitDeadline found) (.exitWait found)
  | returned (result : Except CliError InspectionReport) :
    Leads report s (.returned result) (.returned result)

theorem supervise_leads {s : Handshake} {observation : Observation}
    (hgood : Good kind token report s) (hworks : observation.failure = none)
    (htime : observation.late = false) :
    Leads report s s.supervisor (supervise kind token s observation) := by
  cases hpc : s.supervisor with
  | acknowledgementExists =>
    cases hfile : s.acknowledgement with
    | some file =>
      simpa [supervise, hpc, hworks, hfile] using .acknowledgementThere (by simp [hfile])
    | none => simpa [supervise, hpc, hfile] using .acknowledgementMissing hfile
  | acknowledgementRead =>
    cases hfile : s.acknowledgement with
    | some file =>
      obtain rfl := hgood.acknowledgement file hfile
      simpa [supervise, hpc, readJson_eq_ok.mpr ⟨hworks, hfile⟩] using .acknowledgementRead
    | none =>
      simpa [supervise, hpc, readJson, hworks, hfile] using .acknowledgementLost hfile _
  | acknowledgementAlive =>
    cases hexited : s.exited with
    | some status =>
      simpa [supervise, hpc, ensureChildIsRunning, tryWait, hworks, hexited] using
        .acknowledgementExited (by simp [hexited]) _
    | none =>
      simpa [supervise, hpc, ensureChildIsRunning_eq_ok.mpr ⟨hworks, hexited⟩] using
        .acknowledgementAlive hexited
  | acknowledgementDeadline => simpa [supervise, hpc, htime] using .acknowledgementInTime
  | responseExists =>
    cases hfile : s.response with
    | some file => simpa [supervise, hpc, hworks, hfile] using .responseThere (by simp [hfile])
    | none => simpa [supervise, hpc, hfile] using .responseMissing hfile
  | responseRead =>
    cases hfile : s.response with
    | some file =>
      obtain ⟨rfl, hkind, -⟩ := hgood.response file hfile
      simpa [supervise, hpc, readJson_eq_ok.mpr ⟨hworks, hfile⟩, hkind] using .responseRead
    | none => simpa [supervise, hpc, readJson, hworks, hfile] using .responseLost hfile _
  | responseAlive =>
    cases hexited : s.exited with
    | some status =>
      simpa [supervise, hpc, ensureChildIsRunning, tryWait, hworks, hexited] using
        .responseExited (by simp [hexited]) _
    | none =>
      simpa [supervise, hpc, ensureChildIsRunning_eq_ok.mpr ⟨hworks, hexited⟩] using
        .responseAlive hexited
  | responseDeadline => simpa [supervise, hpc, htime] using .responseInTime
  | exitWait found =>
    cases hexited : s.exited with
    | some status =>
      have hsuccess := (hgood.exited status hexited).1
      simpa [supervise, hpc, tryWait_eq_ok.mpr ⟨hworks, hexited⟩, hsuccess] using
        .exitSeen (by simp [hexited]) found
    | none =>
      simpa [supervise, hpc, tryWait_eq_ok.mpr ⟨hworks, hexited⟩] using .exitMissing hexited found
  | exitDeadline found => simpa [supervise, hpc, htime] using .exitInTime found
  | returned result => simpa [supervise, hpc] using .returned result

/-- A call that works, and in time, leads from one answer to the next. -/
theorem Answers.leads {s : Handshake} {log : Log} {supervisor next : Supervisor}
    (hgood : Good kind token report s) (hleads : Leads report s supervisor next)
    (h : Answers report log s supervisor) : Answers report log s next := by
  cases hleads with
  | acknowledgementThere hfile => exact ⟨h, hfile⟩
  | acknowledgementMissing hfile =>
    refine iff_of_false h fun hexited => ?_
    simpa [hfile] using hgood.acknowledgement_of_exited hexited
  | acknowledgementLost hfile => simp [Answers, hfile] at h
  | acknowledgementRead => exact h.1
  | acknowledgementExited hexited => exact h.mpr hexited
  | acknowledgementAlive hexited => exact fun hovertaken => by simpa [hexited] using h.mp hovertaken
  | acknowledgementInTime => exact h
  | responseThere hfile => exact ⟨h, hfile⟩
  | responseMissing hfile =>
    refine iff_of_false h fun hexited => ?_
    simpa [hfile] using hgood.response_of_exited hexited
  | responseLost hfile => simp [Answers, hfile] at h
  | responseRead => exact ⟨h.1, rfl⟩
  | responseExited hexited => exact h.mpr hexited
  | responseAlive hexited => exact fun hovertaken => by simpa [hexited] using h.mp hovertaken
  | responseInTime => exact h
  | exitSeen => exact h
  | exitMissing => exact h
  | exitInTime => exact h
  | returned => exact h

/-- How many calls are left once the child has exited. -/
def Supervisor.callsLeft : Supervisor → ℕ
  | .acknowledgementDeadline => 6
  | .acknowledgementExists => 5
  | .acknowledgementRead => 4
  | .acknowledgementAlive => 1
  | .responseDeadline => 4
  | .responseExists => 3
  | .responseRead => 2
  | .responseAlive => 1
  | .exitDeadline _ => 2
  | .exitWait _ => 1
  | .returned _ => 0

theorem callsLeft_le (supervisor : Supervisor) : supervisor.callsLeft ≤ 6 := by
  cases supervisor <;> simp [Supervisor.callsLeft]

/-- Both files are there, so each call brings the supervisor nearer to its answer. -/
theorem callsLeft_leads {s : Handshake} {supervisor next : Supervisor}
    (hgood : Good kind token report s) (hexited : s.exited.isSome)
    (hleads : Leads report s supervisor next) (hrunning : ∀ result, supervisor ≠ .returned result) :
    next.callsLeft < supervisor.callsLeft := by
  have hack := hgood.acknowledgement_of_exited hexited
  have hresponse := hgood.response_of_exited hexited
  cases hleads with
  | acknowledgementMissing hfile => simp [hfile] at hack
  | acknowledgementAlive hnone => simp [hnone] at hexited
  | responseMissing hfile => simp [hfile] at hresponse
  | responseAlive hnone => simp [hnone] at hexited
  | exitMissing hnone => simp [hnone] at hexited
  | returned result => exact absurd rfl (hrunning result)
  | _ => simp [Supervisor.callsLeft]

/-- A step that is no exit and loses no file leaves the answers as they are. -/
theorem Answers.mono {s next : Handshake} {log : Log} {supervisor : Supervisor}
    {entry : Machine.Entry Handshake Event Unit} (h : Answers report log s supervisor)
    (hentry : isExit entry.event = false) (hexited : next.exited = s.exited)
    (hack : s.acknowledgement.isSome → next.acknowledgement.isSome)
    (hresponse : s.response.isSome → next.response.isSome) :
    Answers report (log ++ [entry]) next supervisor := by
  have hsame : Overtaken (log ++ [entry]) ↔ Overtaken log := by
    rw [overtaken_concat, hentry]
    simp
  cases supervisor with
  | acknowledgementExists => exact mt hsame.mp h
  | acknowledgementRead => exact ⟨mt hsame.mp h.1, hack h.2⟩
  | acknowledgementAlive => exact hsame.trans (hexited ▸ h)
  | acknowledgementDeadline => exact mt hsame.mp h
  | responseExists => exact mt hsame.mp h
  | responseRead => exact ⟨mt hsame.mp h.1, hresponse h.2⟩
  | responseAlive => exact hsame.trans (hexited ▸ h)
  | responseDeadline => exact mt hsame.mp h
  | exitWait found => exact ⟨mt hsame.mp h.1, h.2⟩
  | exitDeadline found => exact ⟨mt hsame.mp h.1, h.2⟩
  | returned result =>
    cases result with
    | ok found => exact ⟨mt hsame.mp h.1, h.2⟩
    | error _ => exact hsame.mpr h

/-- The exit decides whether the supervisor will be wrong about the child. -/
theorem Answers.exit {s : Handshake} {log : Log} {status : ExitStatus}
    (h : Answers report log s s.supervisor) :
    Answers report (log ++ [⟨s, .exit status, ()⟩]) { s with exited := some status }
      s.supervisor := by
  have hafter : Overtaken (log ++ [⟨s, .exit status, ()⟩]) ↔
      Overtaken log ∨ s.supervisor.looks = true := by
    simp [overtaken_concat, isExit]
  have hstill (hlooks : s.supervisor.looks = false) (hnot : ¬ Overtaken log) :
      ¬ Overtaken (log ++ [⟨s, .exit status, ()⟩]) := by
    rw [hafter, hlooks]
    simpa using hnot
  cases hpc : s.supervisor with
  | acknowledgementAlive => exact iff_of_true (hafter.mpr (.inr (by rw [hpc]; rfl))) rfl
  | responseAlive => exact iff_of_true (hafter.mpr (.inr (by rw [hpc]; rfl))) rfl
  | acknowledgementExists => exact hstill (by rw [hpc]; rfl) (by rwa [hpc] at h)
  | acknowledgementDeadline => exact hstill (by rw [hpc]; rfl) (by rwa [hpc] at h)
  | responseExists => exact hstill (by rw [hpc]; rfl) (by rwa [hpc] at h)
  | responseDeadline => exact hstill (by rw [hpc]; rfl) (by rwa [hpc] at h)
  | acknowledgementRead =>
    rw [hpc] at h
    exact ⟨hstill (by rw [hpc]; rfl) h.1, h.2⟩
  | responseRead =>
    rw [hpc] at h
    exact ⟨hstill (by rw [hpc]; rfl) h.1, h.2⟩
  | exitWait found =>
    rw [hpc] at h
    exact ⟨hstill (by rw [hpc]; rfl) h.1, h.2⟩
  | exitDeadline found =>
    rw [hpc] at h
    exact ⟨hstill (by rw [hpc]; rfl) h.1, h.2⟩
  | returned result =>
    rw [hpc] at h
    cases result with
    | ok found => exact ⟨hstill (by rw [hpc]; rfl) h.1, h.2⟩
    | error _ => exact hafter.mpr (.inl h)

/-- What every run of a good child keeps. -/
structure Kept (kind : InspectionKind) (token : String) (report : InspectionReport)
    (s : Handshake) (log : Log) : Prop where
  good : Good kind token report s
  answers : Answers report log s s.supervisor
  exited {entry : Machine.Entry Handshake Event Unit} :
    entry ∈ log → isExit entry.event = true → s.exited.isSome
  calls {front back : Log} {before : Handshake} {status : ExitStatus} :
    log = front ++ ⟨before, .exit status, ()⟩ :: back →
      back.length + s.supervisor.callsLeft ≤ 6

/-- The calls that are left, after a step that is no exit. -/
theorem Kept.calls_concat {s next : Handshake} {log : Log} {event : Event}
    (h : Kept kind token report s log) (hevent : isExit event = false)
    (hcalls : s.exited.isSome → next.supervisor.callsLeft < s.supervisor.callsLeft)
    {front back : Log} {before : Handshake} {status : ExitStatus}
    (heq : log ++ [⟨s, event, ()⟩] = front ++ ⟨before, .exit status, ()⟩ :: back) :
    back.length + next.supervisor.callsLeft ≤ 6 := by
  obtain ⟨-, hlast, -⟩ | ⟨mid, rfl, hlog⟩ := Machine.concat_eq_split.mp heq
  · obtain rfl : Event.exit status = event := congrArg Machine.Entry.event hlast
    cases hevent
  · have hmem : ⟨before, .exit status, ()⟩ ∈ log := by simp [hlog]
    have hless := hcalls (h.exited hmem rfl)
    have hleft := h.calls hlog
    rw [List.length_append, List.length_singleton]
    omega

/-- Only an exit adds an exit to the log. -/
theorem Kept.exited_concat {s next : Handshake} {log : Log} {event : Event}
    (h : Kept kind token report s log) (hevent : isExit event = false)
    (hexited : next.exited = s.exited) {entry : Machine.Entry Handshake Event Unit}
    (hmem : entry ∈ log ++ [⟨s, event, ()⟩]) (hexit : isExit entry.event = true) :
    next.exited.isSome := by
  rw [hexited]
  obtain hmem | hmem := List.mem_append.mp hmem
  · exact h.exited hmem hexit
  · obtain rfl := List.mem_singleton.mp hmem
    exact absurd hexit (by simp [hevent])

theorem Kept.step {s next : Handshake} {log : Log} {event : Event}
    (h : Kept kind token report s log) (hstep : Steps kind token s event next)
    (horderly : Orderly kind token report ⟨s, event, ()⟩) :
    Kept kind token report next (log ++ [⟨s, event, ()⟩]) := by
  cases hstep with
  | publishAcknowledgement file halive hfile =>
    exact {
      good := {
        acknowledgement := fun _ hsome => Option.some.inj hsome ▸ horderly
        response := fun file hfile => by
          obtain ⟨hjson, hkind, -⟩ := h.good.response file hfile
          exact ⟨hjson, hkind, rfl⟩
        exited := h.good.exited }
      answers := h.answers.mono rfl rfl (fun _ => rfl) id
      exited := h.exited_concat rfl rfl
      calls := h.calls_concat rfl fun hexited => by simp [halive] at hexited }
  | publishResponse file halive hfile =>
    exact {
      good := {
        acknowledgement := h.good.acknowledgement
        response := fun _ hsome => Option.some.inj hsome ▸ horderly
        exited := fun status hstatus => by
          rw [show s.exited = some status from hstatus] at halive
          cases halive }
      answers := h.answers.mono rfl rfl id fun _ => rfl
      exited := h.exited_concat rfl rfl
      calls := h.calls_concat rfl fun hexited => by simp [halive] at hexited }
  | exit status halive =>
    have hnone {entry : Machine.Entry Handshake Event Unit} (hmem : entry ∈ log) :
        ¬ isExit entry.event = true := fun hexit => by
      simpa [halive] using h.exited hmem hexit
    exact {
      good := {
        acknowledgement := h.good.acknowledgement
        response := h.good.response
        exited := fun _ hsome => Option.some.inj hsome ▸ horderly }
      answers := h.answers.exit
      exited := fun _ _ => rfl
      calls := fun {front back before other} heq => by
        obtain ⟨-, -, rfl⟩ | ⟨mid, -, hlog⟩ := Machine.concat_eq_split.mp heq
        · simpa using callsLeft_le _
        · exact absurd rfl (@hnone ⟨before, .exit other, ()⟩ (by simp [hlog])) }
  | poll observation hrunning =>
    obtain ⟨hworks, htime⟩ : observation.failure = none ∧ observation.late = false := horderly
    have hleads := supervise_leads h.good hworks htime
    have hanswers := h.answers.leads h.good hleads
    exact {
      good := ⟨h.good.acknowledgement, h.good.response, h.good.exited⟩
      answers := hanswers.mono rfl rfl id id
      exited := h.exited_concat rfl rfl
      calls := h.calls_concat rfl fun hexited =>
        callsLeft_leads h.good hexited hleads hrunning }

theorem reaches_kept {s : Handshake} {log : Log}
    (h : Machine.Reaches .new (Handshake.step kind token) s log)
    (horderly : ∀ entry ∈ log, Orderly kind token report entry) :
    Kept kind token report s log := by
  induction h with
  | start =>
    exact {
      good := ⟨nofun, nofun, nofun⟩
      answers := by simp [Handshake.new, Answers, Overtaken]
      exited := fun hmem => by simp at hmem
      calls := fun heq => by simp at heq }
  | next _ hstep ih =>
    exact (ih fun entry hmem => horderly entry (List.mem_append_left _ hmem)).step
      (step_steps hstep) (horderly _ (by simp))

/-- A report is returned only for a child that followed the protocol.  A child that does so is
answered in six calls after its exit: with its report, unless its exit came between a look for a
file and the look at the process. -/
theorem supervise_handshake {s : Handshake} {log : Log}
    (h : Machine.Reaches .new (Handshake.step kind token) s log) :
    (∀ found, s.supervisor = .returned (.ok found) →
      Acknowledged token s ∧ Reported kind token found s ∧ Exited s) ∧
    ((∀ entry ∈ log, Orderly kind token report entry) →
      ∀ front before status back, log = front ++ ⟨before, .exit status, ()⟩ :: back →
        back.length ≤ 6 ∧
        ((∃ result, s.supervisor = .returned result) ∨
          ∀ observation, (s.step kind token (.poll observation)).isSome) ∧
        ∀ result, s.supervisor = .returned result →
          (result = .ok report ↔ ¬ Overtaken log)) := by
  refine ⟨fun found hfound => ?_, fun horderly front before status back hlog => ?_⟩
  · have hseen := reaches_seen h
    rwa [hfound] at hseen
  · have hkept := reaches_kept h horderly
    refine ⟨?_, ?_, fun result hresult => ?_⟩
    · have hcalls := hkept.calls hlog
      omega
    · cases hpc : s.supervisor with
      | returned result => exact .inl ⟨result, rfl⟩
      | _ => exact .inr fun observation => by simp [Handshake.step, hpc]
    · have hanswers := hkept.answers
      rw [hresult] at hanswers
      cases result with
      | ok found => exact iff_of_true (congrArg _ hanswers.2) hanswers.1
      | error error => exact iff_of_false (by simp) (not_not_intro hanswers)

section Sample

def sampleReport : InspectionReport := ⟨.routes, "[]"⟩

/-- A good child has published both files. -/
def published (supervisor : Supervisor) : Handshake :=
  ⟨some (.json ⟨1, "7-1"⟩), some (.json ⟨1, "7-1", sampleReport⟩), none, supervisor⟩

/-- A good child has exited. -/
def finished (supervisor : Supervisor) : Handshake :=
  { published supervisor with exited := some ⟨true, "exit status: 0"⟩ }

/-- The steps of a good child, all at one place of the supervisor. -/
def childSteps (supervisor : Supervisor) : Log :=
  [⟨{ Handshake.new with supervisor }, .publishAcknowledgement (.json ⟨1, "7-1"⟩), ()⟩,
    ⟨{ published supervisor with response := none },
      .publishResponse (.json ⟨1, "7-1", sampleReport⟩), ()⟩,
    ⟨published supervisor, .exit ⟨true, "exit status: 0"⟩, ()⟩]

def answered : Log :=
  [⟨finished .acknowledgementExists, .poll ⟨none, false⟩, ()⟩,
    ⟨finished .acknowledgementRead, .poll ⟨none, false⟩, ()⟩,
    ⟨finished .responseExists, .poll ⟨none, false⟩, ()⟩,
    ⟨finished .responseRead, .poll ⟨none, false⟩, ()⟩,
    ⟨finished (.exitWait sampleReport), .poll ⟨none, false⟩, ()⟩]

/-- A child that is done before the first look is believed. -/
theorem supervise_handshake_sample :
    answered.length ≤ 6 ∧ ¬ Overtaken (childSteps .acknowledgementExists ++ answered) := by
  have hrun : Machine.run (Handshake.step .routes "7-1") .new
      ((childSteps .acknowledgementExists ++ answered).map (·.event)) =
        some (finished (.returned (.ok sampleReport)),
          childSteps .acknowledgementExists ++ answered) := rfl
  have horderly : ∀ entry ∈ childSteps .acknowledgementExists ++ answered,
      Orderly .routes "7-1" sampleReport entry := by decide
  obtain ⟨hcalls, -, hresult⟩ := (supervise_handshake (Machine.reaches_of_run hrun)).2 horderly
    [_, _] _ _ answered rfl
  exact ⟨hcalls, (hresult _ rfl).mp rfl⟩

/-- The child publishes both files and exits after the supervisor has missed the first file. -/
def overtaken : Log :=
  ⟨.new, .poll ⟨none, false⟩, ()⟩ :: childSteps .acknowledgementAlive ++
    [⟨finished .acknowledgementAlive, .poll ⟨none, false⟩, ()⟩]

/-- A good child that works in time is refused. -/
theorem overtaken_child :
    ∃ s error, Machine.Reaches .new (Handshake.step .routes "7-1") s overtaken ∧
      (∀ entry ∈ overtaken, Orderly .routes "7-1" sampleReport entry) ∧
      Acknowledged "7-1" s ∧ Reported .routes "7-1" sampleReport s ∧ Exited s ∧
      s.supervisor = .returned (.error error) := by
  have hrun : Machine.run (Handshake.step .routes "7-1") .new (overtaken.map (·.event)) =
      some (finished (.returned (.error (inspectionError
        ("the application exited before completing private inspection (" ++ "exit status: 0" ++
          "); v0.7 inspection requires the standard Mads::run::<AppModule>() entry point")))),
          overtaken) := rfl
  exact ⟨_, _, Machine.reaches_of_run hrun, by decide, rfl, ⟨rfl, rfl⟩, ⟨_, rfl, rfl⟩, rfl⟩

end Sample

end Inspection

end Mads
