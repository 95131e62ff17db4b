import Mads.Cli.InspectionRequest

/-!
# The command line's arguments

What is not the command line's own is passed on as it came, whether it is text or not.
-/

namespace Mads

namespace CommandLine

open Paths

/-- An application to run and what it is given. -/
structure ApplicationCommand where
  target : TargetSelection
  arguments : List Name
  deriving DecidableEq, Repr

structure InspectionCommand where
  kind : InspectionKind
  target : TargetSelection
  deriving DecidableEq, Repr

inductive DatabaseCommand where
  | generate
  | migrate
  | rollback
  | status
  | help
  deriving DecidableEq, Repr

structure DatabaseInvocation where
  command : DatabaseCommand
  package : Option String
  deriving DecidableEq, Repr

inductive Command where
  | help
  | version
  | run (command : ApplicationCommand)
  | dev (command : ApplicationCommand)
  | inspect (command : InspectionCommand)
  | database (invocation : DatabaseInvocation)
  deriving DecidableEq, Repr

inductive ParseError where
  | unknownCommand (command : Name)
  | unknownArgument (argument : Name)
  | missingValue (option : String)
  | nonUnicodeValue (option : String)
  | duplicateOption (option : String)
  | applicationArgumentsNotAccepted
  | missingDatabaseCommand
  | unknownDatabaseCommand (command : Name)
  | databaseSyntax (error : ParseError)
  deriving DecidableEq, Repr

def ParseError.isDatabaseCommand : ParseError → Bool
  | missingDatabaseCommand | unknownDatabaseCommand _ | databaseSyntax _ => true
  | unknownCommand _ | unknownArgument _ | missingValue _ | nonUnicodeValue _ | duplicateOption _
  | applicationArgumentsNotAccepted => false

/-! ### Selectors -/

inductive Selector where
  | package
  | binary
  deriving DecidableEq, Repr

/-- The name of a selector in an error. -/
def Selector.option : Selector → String
  | package => "--package"
  | binary => "--bin"

def Selector.flags : Selector → List String
  | package => ["--package", "-p"]
  | binary => ["--bin"]

def selected (target : TargetSelection) : Selector → Option String
  | .package => target.package
  | .binary => target.binary

def select (target : TargetSelection) (value : String) : Selector → TargetSelection
  | .package => { target with package := some value }
  | .binary => { target with binary := some value }

def startsWithDash (text : String) : Bool := text.toList.head? = some '-'

/-- `parse_selector`: the value that follows, for a selector without one so far. -/
def parseSelector (next : Option Name) (option : String) (destination : Option String) :
    Except ParseError String :=
  if destination.isSome then .error (.duplicateOption option)
  else
    match next with
    | none => .error (.missingValue option)
    | some value =>
      match intoString value with
      | none => .error (.nonUnicodeValue option)
      | some text => if startsWithDash text then .error (.missingValue option) else .ok text

/-- What two dashes mean to a command. -/
inductive Separator where
  | ends
  | rejected
  | unknown
  deriving DecidableEq, Repr

/-- Which selectors a command has, and what two dashes mean to it. -/
structure Grammar where
  selectors : List Selector
  separator : Separator

def Grammar.selectorOf (grammar : Grammar) (argument : Name) : Option Selector :=
  (intoString argument).bind fun text => grammar.selectors.find? fun selector => text ∈ selector.flags

/-- The loop over the options: what they select, and what follows two dashes. -/
def Grammar.parse (grammar : Grammar) (target : TargetSelection) :
    List Name → Except ParseError (TargetSelection × List Name)
  | [] => .ok (target, [])
  | argument :: rest =>
    if argument = osStr "--" ∧ grammar.separator = .ends then .ok (target, rest)
    else if argument = osStr "--" ∧ grammar.separator = .rejected then
      .error .applicationArgumentsNotAccepted
    else
      match grammar.selectorOf argument with
      | none => .error (.unknownArgument argument)
      | some selector =>
        match parseSelector rest.head? selector.option (selected target selector) with
        | .error error => .error error
        | .ok value => grammar.parse (select target value selector) rest.tail
termination_by arguments => arguments.length
decreasing_by rw [List.length_tail, List.length_cons]; omega

def parseInspectionCommand (kind : InspectionKind) (arguments : List Name) :
    Except ParseError Command :=
  match (Grammar.mk [.package, .binary] .rejected).parse ⟨none, none⟩ arguments with
  | .error error => .error error
  | .ok (target, _) => .ok (.inspect ⟨kind, target⟩)

def parseApplicationCommand (arguments : List Name) : Except ParseError ApplicationCommand :=
  match (Grammar.mk [.package, .binary] .ends).parse ⟨none, none⟩ arguments with
  | .error error => .error error
  | .ok (target, arguments) => .ok ⟨target, arguments⟩

def databaseCommand (name : Name) : Option DatabaseCommand :=
  match intoString name with
  | none => none
  | some text =>
    if text = "generate" then some .generate
    else if text = "migrate" then some .migrate
    else if text = "rollback" then some .rollback
    else if text = "status" then some .status
    else if text = "--help" ∨ text = "-h" then some .help
    else none

def parseDatabaseCommand : List Name → Except ParseError Command
  | [] => .error .missingDatabaseCommand
  | command :: options =>
    match databaseCommand command with
    | none => .error (.unknownDatabaseCommand command)
    | some database =>
      match (Grammar.mk [.package] .unknown).parse ⟨none, none⟩ options with
      | .error error => .error (.databaseSyntax error)
      | .ok (target, _) => .ok (.database ⟨database, target.package⟩)

/-- The arguments after the name of the program. -/
def parse : List Name → Except ParseError Command
  | [] => .ok .help
  | command :: remaining =>
    match intoString command with
    | none => .error (.unknownCommand command)
    | some text =>
      if (text = "--help" ∨ text = "-h") ∧ remaining = [] then .ok .help
      else if (text = "--version" ∨ text = "-V") ∧ remaining = [] then .ok .version
      else if text = "run" then (parseApplicationCommand remaining).map .run
      else if text = "dev" then (parseApplicationCommand remaining).map .dev
      else if text = "routes" then parseInspectionCommand .routes remaining
      else if text = "graph" then parseInspectionCommand .graph remaining
      else if text = "doctor" then parseInspectionCommand .doctor remaining
      else if text = "db" then parseDatabaseCommand remaining
      else .error (.unknownCommand command)

/-! ### What is accepted -/

/-- A selector as it is written, with a value that is no option. -/
structure Choice where
  selector : Selector
  flag : String
  value : String
  flag_mem : flag ∈ selector.flags
  value_ok : startsWithDash value = false

def words (choices : List Choice) : List Name :=
  choices.flatMap fun choice => [osStr choice.flag, osStr choice.value]

def chosen (choices : List Choice) (selector : Selector) : Option String :=
  (choices.find? fun choice => choice.selector = selector).map Choice.value

/-- No selector is chosen twice, and the target is what is chosen. -/
structure Says (choices : List Choice) (target : TargetSelection) : Prop where
  once : (choices.map Choice.selector).Nodup
  package : target.package = chosen choices .package
  binary : target.binary = chosen choices .binary

/-- The arguments of a command. -/
inductive Written : Command → List Name → Prop
  | nothing : Written .help []
  | help (flag : String) (hflag : flag ∈ ["--help", "-h"]) : Written .help [osStr flag]
  | version (flag : String) (hflag : flag ∈ ["--version", "-V"]) : Written .version [osStr flag]
  | run {choices : List Choice} {target : TargetSelection} (hread : Says choices target) :
      Written (.run ⟨target, []⟩) (osStr "run" :: words choices)
  | runWith {choices : List Choice} {target : TargetSelection} (hread : Says choices target)
      (arguments : List Name) :
      Written (.run ⟨target, arguments⟩) (osStr "run" :: words choices ++ osStr "--" :: arguments)
  | dev {choices : List Choice} {target : TargetSelection} (hread : Says choices target) :
      Written (.dev ⟨target, []⟩) (osStr "dev" :: words choices)
  | devWith {choices : List Choice} {target : TargetSelection} (hread : Says choices target)
      (arguments : List Name) :
      Written (.dev ⟨target, arguments⟩) (osStr "dev" :: words choices ++ osStr "--" :: arguments)
  | inspect {choices : List Choice} {target : TargetSelection} (kind : InspectionKind)
      (hread : Says choices target) :
      Written (.inspect ⟨kind, target⟩)
        (osStr (InspectionRequest.kindName kind) :: words choices)
  | database {choices : List Choice} {target : TargetSelection} (command : DatabaseCommand)
      (name : String) (hname : databaseCommand (osStr name) = some command)
      (hread : Says choices target) (hpackage : ∀ choice ∈ choices, choice.selector = .package) :
      Written (.database ⟨command, target.package⟩) (osStr "db" :: osStr name :: words choices)

@[simp] theorem intoString_osStr (text : String) : intoString (osStr text) = some text :=
  intoString_eq_some.mpr rfl

theorem selected_select {target : TargetSelection} {selector other : Selector} {value : String} :
    selected (select target value selector) other =
      if other = selector then some value else selected target other := by
  cases selector <;> cases other <;> rfl

theorem flags_disjoint {selector other : Selector} {flag : String} (h : flag ∈ selector.flags)
    (hother : flag ∈ other.flags) : selector = other := by
  cases selector <;> cases other <;> simp [Selector.flags] at h hother ⊢ <;> aesop

namespace Grammar

variable {grammar : Grammar}

theorem selectorOf_eq_some {argument : Name} {selector : Selector} :
    grammar.selectorOf argument = some selector ↔
      selector ∈ grammar.selectors ∧ ∃ flag ∈ selector.flags, argument = osStr flag := by
  constructor
  · intro h
    obtain ⟨text, htext, hfound⟩ := Option.bind_eq_some_iff.mp h
    have hflag : text ∈ selector.flags := by simpa using List.find?_some hfound
    exact ⟨List.mem_of_find?_eq_some hfound, text, hflag, intoString_eq_some.mp htext⟩
  · rintro ⟨hselector, flag, hflag, rfl⟩
    rw [selectorOf, intoString_osStr, Option.bind_some]
    cases hfound : grammar.selectors.find? fun selector => flag ∈ selector.flags with
    | none => exact absurd hflag (by simpa using List.find?_eq_none.mp hfound selector hselector)
    | some other =>
      have hother : flag ∈ other.flags := by simpa using List.find?_some hfound
      rw [flags_disjoint hflag hother]

theorem parseSelector_eq_ok {next : Option Name} {option value : String}
    {destination : Option String} : parseSelector next option destination = .ok value ↔
      destination = none ∧ next = some (osStr value) ∧ startsWithDash value = false := by
  unfold parseSelector
  cases destination with
  | some previous => simp
  | none =>
    cases next with
    | none => simp
    | some name =>
      cases htext : intoString name with
      | none =>
        have hname : name ≠ osStr value := by
          rintro rfl
          simp at htext
        simp [htext, hname]
      | some text =>
        obtain rfl := intoString_eq_some.mp htext
        simp only [Option.isSome_none, Bool.false_eq_true, if_false, htext, true_and,
          Option.some.injEq, osStr_injective.eq_iff]
        split
        · next hdash =>
          refine iff_of_false (by simp) ?_
          rintro ⟨rfl, hvalue⟩
          simp [hdash] at hvalue
        · next hdash =>
          rw [Except.ok.injEq]
          constructor
          · rintro rfl
            exact ⟨rfl, by simpa using hdash⟩
          · exact fun h => h.1

theorem selected_ext {target other : TargetSelection}
    (h : ∀ selector, selected target selector = selected other selector) : target = other := by
  obtain ⟨package, binary⟩ := target
  obtain ⟨package', binary'⟩ := other
  rw [TargetSelection.mk.injEq]
  exact ⟨h .package, h .binary⟩

/-- What the choices make of a target that has none of them so far. -/
structure Selects (grammar : Grammar) (target : TargetSelection) (choices : List Choice)
    (after : TargetSelection) : Prop where
  known : ∀ choice ∈ choices, choice.selector ∈ grammar.selectors
  once : (choices.map Choice.selector).Nodup
  free : ∀ choice ∈ choices, selected target choice.selector = none
  after : ∀ selector, selected after selector = (chosen choices selector).or (selected target selector)

theorem selects_nil {target after : TargetSelection} :
    Selects grammar target [] after ↔ after = target := by
  constructor
  · exact fun h => selected_ext fun selector => by rw [h.after]; rfl
  · rintro rfl
    exact ⟨by simp, by simp, by simp, fun selector => rfl⟩

theorem chosen_eq_none {choices : List Choice} {selector : Selector}
    (h : ∀ choice ∈ choices, choice.selector ≠ selector) : chosen choices selector = none := by
  rw [chosen, Option.map_eq_none_iff, List.find?_eq_none]
  exact fun choice hmem heq => h choice hmem (of_decide_eq_true heq)

theorem selects_cons {target after : TargetSelection} {choice : Choice} {choices : List Choice} :
    Selects grammar target (choice :: choices) after ↔
      choice.selector ∈ grammar.selectors ∧ selected target choice.selector = none ∧
        Selects grammar (select target choice.value choice.selector) choices after := by
  have hchosen (selector : Selector) : chosen (choice :: choices) selector =
      if choice.selector = selector then some choice.value else chosen choices selector := by
    by_cases heq : choice.selector = selector <;> simp [chosen, heq]
  constructor
  · intro h
    obtain ⟨hfirst, honce⟩ := List.nodup_cons.mp h.once
    refine ⟨h.known choice (by simp), h.free choice (by simp),
      fun other hother => h.known other (by simp [hother]), honce, fun other hother => ?_,
      fun selector => ?_⟩
    · have hne : other.selector ≠ choice.selector :=
        fun heq => hfirst (heq ▸ List.mem_map_of_mem hother)
      rw [selected_select, if_neg hne]
      exact h.free other (by simp [hother])
    · rw [h.after, hchosen, selected_select]
      by_cases heq : choice.selector = selector
      · have hnone : chosen choices selector = none := chosen_eq_none fun other hother hselector =>
          hfirst (heq.trans hselector.symm ▸ List.mem_map_of_mem hother)
        rw [if_pos heq, if_pos heq.symm, hnone]
        rfl
      · rw [if_neg heq, if_neg (Ne.symm heq)]
  · rintro ⟨hknown, hfree, h⟩
    have hother (other : Choice) (hmem : other ∈ choices) : other.selector ≠ choice.selector := by
      intro heq
      have := h.free other hmem
      rw [selected_select, if_pos heq] at this
      cases this
    refine ⟨?_, List.nodup_cons.mpr ⟨?_, h.once⟩, ?_, fun selector => ?_⟩
    · rintro other hmem
      obtain rfl | hmem := List.mem_cons.mp hmem
      · exact hknown
      · exact h.known other hmem
    · intro hmem
      obtain ⟨other, hmem, heq⟩ := List.mem_map.mp hmem
      exact hother other hmem heq
    · rintro other hmem
      obtain rfl | hmem := List.mem_cons.mp hmem
      · exact hfree
      · have := h.free other hmem
        rwa [selected_select, if_neg (hother other hmem)] at this
    · rw [h.after, hchosen, selected_select]
      by_cases heq : choice.selector = selector
      · have hnone : chosen choices selector = none := chosen_eq_none fun other hmem hselector =>
          hother other hmem (hselector.trans heq.symm)
        rw [if_pos heq, if_pos heq.symm, hnone]
        rfl
      · rw [if_neg heq, if_neg (Ne.symm heq)]

/-- What is accepted as options: choices, and after them, where a command has that, two dashes with
anything behind. -/
theorem parse_eq_ok {target after : TargetSelection} {arguments tail : List Name} :
    grammar.parse target arguments = .ok (after, tail) ↔
      ∃ choices, Selects grammar target choices after ∧
        (arguments = words choices ∧ tail = [] ∨
          grammar.separator = .ends ∧ arguments = words choices ++ osStr "--" :: tail) := by
  constructor
  · intro h
    fun_induction Grammar.parse grammar target arguments with
    | case1 target =>
      cases h
      exact ⟨[], selects_nil.mpr rfl, .inl ⟨rfl, rfl⟩⟩
    | case2 target argument rest hends =>
      cases h
      exact ⟨[], selects_nil.mpr rfl, .inr ⟨hends.2, by rw [hends.1]; rfl⟩⟩
    | case3 => cases h
    | case4 => cases h
    | case5 => cases h
    | case6 target argument rest hends hrejected selector hselector value hvalue ih =>
      obtain ⟨choices, hselects, harguments⟩ := ih h
      obtain ⟨hknown, flag, hflag, rfl⟩ := selectorOf_eq_some.mp hselector
      obtain ⟨hfree, hnext, hdash⟩ := parseSelector_eq_ok.mp hvalue
      obtain ⟨rest, rfl⟩ : ∃ more, rest = osStr value :: more := by
        cases rest with
        | nil => cases hnext
        | cons next more => exact ⟨more, by rw [Option.some.inj hnext]⟩
      refine ⟨⟨selector, flag, value, hflag, hdash⟩ :: choices,
        selects_cons.mpr ⟨hknown, hfree, hselects⟩, ?_⟩
      rw [List.tail_cons] at harguments
      simpa [words] using harguments
  · rintro ⟨choices, hselects, harguments⟩
    induction choices generalizing target arguments with
    | nil =>
      obtain rfl := selects_nil.mp hselects
      obtain ⟨rfl, rfl⟩ | ⟨hends, rfl⟩ := harguments
      · simp [Grammar.parse, words]
      · simp [Grammar.parse, words, hends]
    | cons choice choices ih =>
      obtain ⟨hknown, hfree, hselects⟩ := selects_cons.mp hselects
      have hselector : grammar.selectorOf (osStr choice.flag) = some choice.selector :=
        selectorOf_eq_some.mpr ⟨hknown, choice.flag, choice.flag_mem, rfl⟩
      have hflag : osStr choice.flag ≠ osStr "--" := by
        rw [osStr_injective.ne_iff]
        intro heq
        have := choice.flag_mem
        rw [heq] at this
        cases hchoice : choice.selector <;> simp [hchoice, Selector.flags] at this
      obtain ⟨rest, hrest, htail⟩ : ∃ rest, arguments =
          osStr choice.flag :: osStr choice.value :: rest ∧ (rest = words choices ∧ tail = [] ∨
            grammar.separator = .ends ∧ rest = words choices ++ osStr "--" :: tail) := by
        obtain ⟨rfl, htail⟩ | ⟨hends, rfl⟩ := harguments
        · exact ⟨words choices, rfl, .inl ⟨rfl, htail⟩⟩
        · exact ⟨_, rfl, .inr ⟨hends, rfl⟩⟩
      subst hrest
      rw [Grammar.parse, if_neg fun h => hflag h.1, if_neg fun h => hflag h.1, hselector]
      dsimp only
      rw [List.head?_cons, parseSelector_eq_ok.mpr ⟨hfree, rfl, choice.value_ok⟩]
      exact ih hselects htail

theorem selects_none {target : TargetSelection} {choices : List Choice} :
    Selects grammar ⟨none, none⟩ choices target ↔
      Says choices target ∧ ∀ choice ∈ choices, choice.selector ∈ grammar.selectors := by
  have hnone (selector : Selector) : selected ⟨none, none⟩ selector = none := by
    cases selector <;> rfl
  constructor
  · intro h
    have hafter (selector : Selector) : selected target selector = chosen choices selector := by
      rw [h.after, hnone, Option.or_none]
    exact ⟨⟨h.once, hafter .package, hafter .binary⟩, h.known⟩
  · rintro ⟨hread, hknown⟩
    refine ⟨hknown, hread.once, fun choice _ => hnone _, fun selector => ?_⟩
    rw [hnone, Option.or_none]
    cases selector with
    | package => exact hread.package
    | binary => exact hread.binary

end Grammar

theorem parseApplicationCommand_eq_ok {arguments : List Name} {command : ApplicationCommand} :
    parseApplicationCommand arguments = .ok command ↔ ∃ choices, Says choices command.target ∧
      (arguments = words choices ∧ command.arguments = [] ∨
        arguments = words choices ++ osStr "--" :: command.arguments) := by
  obtain ⟨target, rest⟩ := command
  have hparse : (Grammar.mk [.package, .binary] .ends).parse ⟨none, none⟩ arguments =
    .ok (target, rest) ↔ _ := Grammar.parse_eq_ok
  have hknown (choice : Choice) : choice.selector ∈ [Selector.package, .binary] := by
    cases choice.selector <;> simp
  simp only [Grammar.selects_none, hknown, implies_true, and_true, true_and] at hparse
  rw [← hparse, parseApplicationCommand]
  split
  · next error herror => simp [herror]
  · next target rest hok => simp [hok]

theorem parseInspectionCommand_eq_ok {kind : InspectionKind} {arguments : List Name}
    {command : Command} : parseInspectionCommand kind arguments = .ok command ↔
      ∃ choices target, Says choices target ∧ arguments = words choices ∧
        command = .inspect ⟨kind, target⟩ := by
  have hparse (target : TargetSelection) (rest : List Name) :
    (Grammar.mk [.package, .binary] .rejected).parse ⟨none, none⟩ arguments =
      .ok (target, rest) ↔ _ := Grammar.parse_eq_ok
  have hknown (choice : Choice) : choice.selector ∈ [Selector.package, .binary] := by
    cases choice.selector <;> simp
  simp only [Grammar.selects_none, hknown, implies_true, and_true, reduceCtorEq, false_and,
    or_false] at hparse
  rw [parseInspectionCommand]
  split
  · next error herror =>
    refine iff_of_false (by simp) ?_
    rintro ⟨choices, target, hread, harguments, -⟩
    rw [(hparse target []).mpr ⟨choices, hread, harguments, rfl⟩] at herror
    cases herror
  · next target rest hok =>
    obtain ⟨choices, hread, harguments, rfl⟩ := (hparse target rest).mp hok
    constructor
    · intro h
      exact ⟨choices, target, hread, harguments, (Except.ok.inj h).symm⟩
    · rintro ⟨other, target', hread', harguments', rfl⟩
      have hother := (hparse target' []).mpr ⟨other, hread', harguments', rfl⟩
      rw [hok] at hother
      cases hother
      rfl

theorem parseDatabaseCommand_eq_ok {arguments : List Name} {command : Command} :
    parseDatabaseCommand arguments = .ok command ↔
      ∃ database name choices target, databaseCommand name = some database ∧
        Says choices target ∧ (∀ choice ∈ choices, choice.selector = .package) ∧
        arguments = name :: words choices ∧ command = .database ⟨database, target.package⟩ := by
  cases arguments with
  | nil => simp [parseDatabaseCommand]
  | cons first options =>
    have hparse (target : TargetSelection) (rest : List Name) :
      (Grammar.mk [.package] .unknown).parse ⟨none, none⟩ options = .ok (target, rest) ↔ _ :=
        Grammar.parse_eq_ok
    simp only [Grammar.selects_none, List.mem_singleton, reduceCtorEq, false_and,
      or_false] at hparse
    simp only [List.cons.injEq]
    rw [parseDatabaseCommand]
    cases hfirst : databaseCommand first with
    | none =>
      refine iff_of_false (by simp) ?_
      rintro ⟨database, name, choices, target, hname, -, -, ⟨rfl, -⟩, -⟩
      simp [hfirst] at hname
    | some database =>
      dsimp only
      split
      · next error herror =>
        refine iff_of_false (by simp) ?_
        rintro ⟨-, -, choices, target, -, hread, hpackage, ⟨-, hoptions⟩, -⟩
        rw [(hparse target []).mpr ⟨choices, ⟨hread, hpackage⟩, hoptions, rfl⟩] at herror
        cases herror
      · next target rest hok =>
        obtain ⟨choices, ⟨hread, hpackage⟩, hoptions, rfl⟩ := (hparse target rest).mp hok
        constructor
        · intro h
          exact ⟨database, first, choices, target, hfirst, hread, hpackage, ⟨rfl, hoptions⟩,
            (Except.ok.inj h).symm⟩
        · rintro ⟨database', name, other, target', hname, hread', hpackage', ⟨rfl, hoptions'⟩, rfl⟩
          obtain rfl : database = database' := Option.some.inj (hfirst.symm.trans hname)
          have hother := (hparse target' []).mpr ⟨other, ⟨hread', hpackage'⟩, hoptions', rfl⟩
          rw [hok] at hother
          cases hother
          rfl

theorem databaseCommand_isText {name : Name} {database : DatabaseCommand}
    (h : databaseCommand name = some database) : ∃ text, name = osStr text := by
  unfold databaseCommand at h
  split at h
  · cases h
  · next text htext => exact ⟨text, intoString_eq_some.mp htext⟩

theorem map_eq_ok {α β : Type} {call : Except ParseError α} {f : α → β} {b : β} :
    call.map f = .ok b ↔ ∃ a, call = .ok a ∧ f a = b := by
  cases call <;> simp [Except.map]

/-- Exactly the arguments that are written in the grammar are accepted, as the command that they are
written for. -/
theorem parse_eq_ok_iff {arguments : List Name} {command : Command} :
    parse arguments = .ok command ↔ Written command arguments := by
  constructor
  · intro h
    unfold parse at h
    split at h
    · cases h
      exact .nothing
    · next first remaining =>
      split at h
      · cases h
      · next text htext =>
        obtain rfl := intoString_eq_some.mp htext
        split at h
        · next hhelp =>
          obtain ⟨hflag, rfl⟩ := hhelp
          cases h
          exact .help text (by simpa using hflag)
        split at h
        · next hversion =>
          obtain ⟨hflag, rfl⟩ := hversion
          cases h
          exact .version text (by simpa using hflag)
        split at h
        · next hrun =>
          subst hrun
          obtain ⟨⟨target, rest⟩, hcommand, rfl⟩ := map_eq_ok.mp h
          obtain ⟨choices, hread, ⟨rfl, rfl⟩ | rfl⟩ := parseApplicationCommand_eq_ok.mp hcommand
          · exact .run hread
          · exact .runWith hread rest
        split at h
        · next hdev =>
          subst hdev
          obtain ⟨⟨target, rest⟩, hcommand, rfl⟩ := map_eq_ok.mp h
          obtain ⟨choices, hread, ⟨rfl, rfl⟩ | rfl⟩ := parseApplicationCommand_eq_ok.mp hcommand
          · exact .dev hread
          · exact .devWith hread rest
        split at h
        · next hroutes =>
          subst hroutes
          obtain ⟨choices, target, hread, rfl, rfl⟩ := parseInspectionCommand_eq_ok.mp h
          exact .inspect .routes hread
        split at h
        · next hgraph =>
          subst hgraph
          obtain ⟨choices, target, hread, rfl, rfl⟩ := parseInspectionCommand_eq_ok.mp h
          exact .inspect .graph hread
        split at h
        · next hdoctor =>
          subst hdoctor
          obtain ⟨choices, target, hread, rfl, rfl⟩ := parseInspectionCommand_eq_ok.mp h
          exact .inspect .doctor hread
        split at h
        · next hdb =>
          subst hdb
          obtain ⟨database, name, choices, target, hname, hread, hpackage, rfl, rfl⟩ :=
            parseDatabaseCommand_eq_ok.mp h
          obtain ⟨name, rfl⟩ := databaseCommand_isText hname
          exact .database database name hname hread hpackage
        · cases h
  · intro h
    cases h with
    | nothing => rfl
    | help flag hflag =>
      obtain rfl | rfl : flag = "--help" ∨ flag = "-h" := by simpa using hflag
      · simp [parse]
      · simp [parse]
    | version flag hflag =>
      obtain rfl | rfl : flag = "--version" ∨ flag = "-V" := by simpa using hflag
      · simp [parse]
      · simp [parse]
    | @run choices target hread =>
      have hcommand : parseApplicationCommand (words choices) = .ok ⟨target, []⟩ :=
        parseApplicationCommand_eq_ok.mpr ⟨choices, hread, .inl ⟨rfl, rfl⟩⟩
      simpa [parse, map_eq_ok] using hcommand
    | @runWith choices target hread arguments =>
      have hcommand : parseApplicationCommand (words choices ++ osStr "--" :: arguments) =
          .ok ⟨target, arguments⟩ :=
        parseApplicationCommand_eq_ok.mpr ⟨choices, hread, .inr rfl⟩
      simpa [parse, map_eq_ok] using hcommand
    | @dev choices target hread =>
      have hcommand : parseApplicationCommand (words choices) = .ok ⟨target, []⟩ :=
        parseApplicationCommand_eq_ok.mpr ⟨choices, hread, .inl ⟨rfl, rfl⟩⟩
      simpa [parse, map_eq_ok] using hcommand
    | @devWith choices target hread arguments =>
      have hcommand : parseApplicationCommand (words choices ++ osStr "--" :: arguments) =
          .ok ⟨target, arguments⟩ :=
        parseApplicationCommand_eq_ok.mpr ⟨choices, hread, .inr rfl⟩
      simpa [parse, map_eq_ok] using hcommand
    | @inspect choices target kind hread =>
      have hcommand : parseInspectionCommand kind (words choices) = .ok (.inspect ⟨kind, target⟩) :=
        parseInspectionCommand_eq_ok.mpr ⟨choices, target, hread, rfl, rfl⟩
      cases kind with
      | routes => simpa [parse, InspectionRequest.kindName] using hcommand
      | graph => simpa [parse, InspectionRequest.kindName] using hcommand
      | doctor => simpa [parse, InspectionRequest.kindName] using hcommand
    | @database choices target database name hname hread hpackage =>
      simpa [parse] using parseDatabaseCommand_eq_ok.mpr
        ⟨database, osStr name, choices, target, hname, hread, hpackage, rfl, rfl⟩

/-! ### What is turned down -/

theorem parseSelector_isDatabaseCommand {next : Option Name} {option : String}
    {destination : Option String} {error : ParseError}
    (h : parseSelector next option destination = .error error) :
    error.isDatabaseCommand = false := by
  unfold parseSelector at h
  split at h
  · cases h
    rfl
  · split at h
    · cases h
      rfl
    · split at h
      · cases h
        rfl
      · split at h
        · cases h
          rfl
        · cases h

theorem Grammar.parse_isDatabaseCommand {grammar : Grammar} {target : TargetSelection}
    {arguments : List Name} {error : ParseError}
    (h : grammar.parse target arguments = .error error) :
    error.isDatabaseCommand = false := by
  fun_induction Grammar.parse grammar target arguments with
  | case1 => cases h
  | case2 => cases h
  | case3 =>
    cases h
    rfl
  | case4 =>
    cases h
    rfl
  | case5 target argument rest hends hrejected selector hselector failure hfailure =>
    cases h
    exact parseSelector_isDatabaseCommand hfailure
  | case6 target argument rest hends hrejected selector hselector value hvalue ih => exact ih h

theorem parseApplicationCommand_isDatabaseCommand {arguments : List Name} {error : ParseError}
    (h : parseApplicationCommand arguments = .error error) : error.isDatabaseCommand = false := by
  unfold parseApplicationCommand at h
  split at h
  · next failure hfailure =>
    cases h
    exact Grammar.parse_isDatabaseCommand hfailure
  · cases h

theorem parseInspectionCommand_isDatabaseCommand {kind : InspectionKind} {arguments : List Name}
    {error : ParseError} (h : parseInspectionCommand kind arguments = .error error) :
    error.isDatabaseCommand = false := by
  unfold parseInspectionCommand at h
  split at h
  · next failure hfailure =>
    cases h
    exact Grammar.parse_isDatabaseCommand hfailure
  · cases h

theorem parseDatabaseCommand_isDatabaseCommand {arguments : List Name} {error : ParseError}
    (h : parseDatabaseCommand arguments = .error error) : error.isDatabaseCommand = true := by
  unfold parseDatabaseCommand at h
  split at h
  · cases h
    rfl
  · split at h
    · cases h
      rfl
    · split at h
      · cases h
        rfl
      · cases h

theorem map_eq_error {α β : Type} {call : Except ParseError α} {f : α → β} {error : ParseError} :
    call.map f = .error error ↔ call = .error error := by
  cases call <;> simp [Except.map]

/-- The help for the database commands goes with the errors that are made behind `db`. -/
theorem parse_isDatabaseCommand {arguments : List Name} {error : ParseError}
    (h : parse arguments = .error error) :
    error.isDatabaseCommand = true ↔ arguments.head? = some (osStr "db") := by
  unfold parse at h
  split at h
  · cases h
  · next first remaining =>
    rw [List.head?_cons, Option.some.injEq]
    split at h
    · next hnone =>
      cases h
      refine iff_of_false (by simp [ParseError.isDatabaseCommand]) ?_
      rintro rfl
      simp at hnone
    · next text htext =>
      obtain rfl := intoString_eq_some.mp htext
      rw [osStr_injective.eq_iff]
      split at h
      · cases h
      split at h
      · cases h
      split at h
      · next hrun =>
        rw [parseApplicationCommand_isDatabaseCommand (map_eq_error.mp h), hrun]
        decide
      split at h
      · next hdev =>
        rw [parseApplicationCommand_isDatabaseCommand (map_eq_error.mp h), hdev]
        decide
      split at h
      · next hroutes =>
        rw [parseInspectionCommand_isDatabaseCommand h, hroutes]
        decide
      split at h
      · next hgraph =>
        rw [parseInspectionCommand_isDatabaseCommand h, hgraph]
        decide
      split at h
      · next hdoctor =>
        rw [parseInspectionCommand_isDatabaseCommand h, hdoctor]
        decide
      split at h
      · next hdb => exact iff_of_true (parseDatabaseCommand_isDatabaseCommand h) hdb
      · next hdb =>
        cases h
        exact iff_of_false (by simp [ParseError.isDatabaseCommand]) hdb

/-- A command whose selectors are no options can be asked for. -/
def Command.Plain : Command → Prop
  | .help | .version => True
  | .run command | .dev command =>
    ∀ selector, ∀ value ∈ selected command.target selector, startsWithDash value = false
  | .inspect command =>
    ∀ selector, ∀ value ∈ selected command.target selector, startsWithDash value = false
  | .database invocation => ∀ value ∈ invocation.package, startsWithDash value = false

/-- The first flag of each selector that is there. -/
theorem exists_says {target : TargetSelection}
    (h : ∀ selector, ∀ value ∈ selected target selector, startsWithDash value = false) :
    ∃ choices, Says choices target ∧
      (target.binary = none → ∀ choice ∈ choices, choice.selector = .package) := by
  obtain ⟨package, binary⟩ := target
  have choice (selector : Selector) (value : String) (hvalue : startsWithDash value = false) :
      ∃ choice : Choice, choice.selector = selector ∧ choice.value = value :=
    ⟨⟨selector, selector.option, value, by cases selector <;> decide, hvalue⟩, rfl, rfl⟩
  cases package with
  | none =>
    cases binary with
    | none => exact ⟨[], ⟨by simp, rfl, rfl⟩, by simp⟩
    | some binary =>
      obtain ⟨chosen, hselector, rfl⟩ := choice .binary binary (h .binary binary rfl)
      exact ⟨[chosen], ⟨by simp, by simp [CommandLine.chosen, hselector],
        by simp [CommandLine.chosen, hselector]⟩, by simp⟩
  | some package =>
    obtain ⟨first, hfirst, rfl⟩ := choice .package package (h .package package rfl)
    cases binary with
    | none =>
      exact ⟨[first], ⟨by simp, by simp [CommandLine.chosen, hfirst],
        by simp [CommandLine.chosen, hfirst]⟩, by simp [hfirst]⟩
    | some binary =>
      obtain ⟨second, hsecond, rfl⟩ := choice .binary binary (h .binary binary rfl)
      exact ⟨[first, second], ⟨by simp [hfirst, hsecond], by simp [CommandLine.chosen, hfirst],
        by simp [CommandLine.chosen, hfirst, hsecond]⟩, by simp⟩

theorem Command.Plain.written {command : Command} (h : command.Plain) :
    ∃ arguments, Written command arguments := by
  cases command with
  | help => exact ⟨_, .nothing⟩
  | version => exact ⟨_, .version "--version" (by simp)⟩
  | run command =>
    obtain ⟨choices, hread, -⟩ := exists_says h
    exact ⟨_, .runWith hread command.arguments⟩
  | dev command =>
    obtain ⟨choices, hread, -⟩ := exists_says h
    exact ⟨_, .devWith hread command.arguments⟩
  | inspect command =>
    obtain ⟨choices, hread, -⟩ := exists_says h
    exact ⟨_, .inspect command.kind hread⟩
  | database invocation =>
    obtain ⟨database, package⟩ := invocation
    obtain ⟨name, hname⟩ : ∃ name, databaseCommand (osStr name) = some database := by
      cases database with
      | generate => exact ⟨"generate", by simp [databaseCommand]⟩
      | migrate => exact ⟨"migrate", by simp [databaseCommand]⟩
      | rollback => exact ⟨"rollback", by simp [databaseCommand]⟩
      | status => exact ⟨"status", by simp [databaseCommand]⟩
      | help => exact ⟨"--help", by simp [databaseCommand]⟩
    have hplain (selector : Selector) : ∀ value ∈ selected ⟨package, none⟩ selector,
        startsWithDash value = false := by
      cases selector with
      | package => exact h
      | binary => simp [selected]
    obtain ⟨choices, hread, hpackage⟩ := exists_says hplain
    exact ⟨_, .database database name hname hread (hpackage rfl)⟩

theorem Says.plain {choices : List Choice} {target : TargetSelection} (h : Says choices target)
    (selector : Selector) : ∀ value ∈ selected target selector, startsWithDash value = false := by
  have hselected : selected target selector = chosen choices selector := by
    cases selector with
    | package => exact h.package
    | binary => exact h.binary
  rw [hselected]
  rintro value hvalue
  obtain ⟨choice, -, rfl⟩ := Option.map_eq_some_iff.mp hvalue
  exact choice.value_ok

theorem Written.plain {command : Command} {arguments : List Name} (h : Written command arguments) :
    command.Plain := by
  cases h with
  | nothing => trivial
  | help => trivial
  | version => trivial
  | run hread => exact hread.plain
  | runWith hread => exact hread.plain
  | dev hread => exact hread.plain
  | devWith hread => exact hread.plain
  | inspect kind hread => exact hread.plain
  | database command name hname hread => exact hread.plain .package

/-- The arguments that are accepted are those of the grammar, each as the command it is written for;
every command can be asked for whose selectors do not begin with a dash, and no other; and the
database help goes with the errors behind `db` alone. -/
theorem parse_spec :
    (∀ arguments command, parse arguments = .ok command ↔ Written command arguments) ∧
    (∀ command, (∃ arguments, parse arguments = .ok command) ↔ command.Plain) ∧
    ∀ arguments error, parse arguments = .error error →
      (error.isDatabaseCommand = true ↔ arguments.head? = some (osStr "db")) := by
  refine ⟨fun _ _ => parse_eq_ok_iff, fun command => ⟨?_, fun h => ?_⟩,
    fun _ _ => parse_isDatabaseCommand⟩
  · rintro ⟨arguments, h⟩
    exact (parse_eq_ok_iff.mp h).plain
  · obtain ⟨arguments, hwritten⟩ := h.written
    exact ⟨arguments, parse_eq_ok_iff.mpr hwritten⟩

end CommandLine

end Mads
