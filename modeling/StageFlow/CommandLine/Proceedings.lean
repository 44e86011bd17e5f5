import StageFlow.CommandLine.Context
import StageFlow.CommandLine.Listing
import StageFlow.Executor.Dispatcher
import StageFlow.Presentation.Terminal
import StageFlow.StageRun.Session

/-!
# Carrying out invocations

The configuration is read and checked, then the stages are chosen; they are listed, planned, or run one
after the other until one does not succeed. `Invocation.carryOut` gives all that is printed and logged on
the way, what has become of the world, and how it ends.

The world is that of a `Host`, which can read files and configurations and has executors for stages.
-/

namespace StageFlow

/-- How an invocation ends that meets no error. -/
inductive RunOutcome where
  | success | failed | cancelled
  deriving DecidableEq

/-- The exit status that tells of an ending. -/
def RunOutcome.exitStatus : RunOutcome → Nat
  | .success => 0
  | .failed => 1
  | .cancelled => 130

/-- Where invocations are carried out. The world has states `σ`, and executors have states `ε`. -/
structure Host (σ ε : Type) where
  env : List RawEntry
  /-- How many steps run side by side if nothing else is said. -/
  cores : Nat
  /-- The text of a file, or why it cannot be read. -/
  read : σ → String → Except String String
  /-- What a text says as a configuration, if it says anything. -/
  parse : String → Option Written.Config
  /-- Whether there is anything at a path. -/
  hasFile : σ → String → Bool
  /-- An executor for the steps of a stage in a directory, and whether the run is to stop already. -/
  employ : σ → String → Bool → ε
  executor : (n : Nat) → Executor n ε
  /-- The world as an executor has left it. -/
  world : ε → σ
  /-- More than the number of things that happen in a stage. -/
  bound : Nat

/-- What has been done so far. -/
structure Proceedings (σ : Type) where
  world : σ
  terminal : Terminal := {}
  journal : Array LogEntry := #[]
  /-- The run has been asked to stop. -/
  cancelled : Bool := false

namespace Proceedings

variable {σ : Type}

/-- Adds log entries. -/
def note (p : Proceedings σ) (entries : List LogEntry) : Proceedings σ :=
  { p with journal := p.journal ++ entries }

/-- Prints lines. -/
def print (p : Proceedings σ) (lines : List String) : Proceedings σ :=
  let text := lines.flatMap fun l => l.toList ++ ['\n']
  { p with terminal := { p.terminal with written := p.terminal.written ++ text } }

/-- Shows messages. -/
def present (p : Proceedings σ) (notices : List Notice) : Proceedings σ :=
  notices.foldl (fun p n =>
    let (terminal, cause) := p.terminal.write n
    { p with terminal }.note (cause.map Terminal.failureEntry).toList) p

/-- The lines that have been printed. -/
def printed (p : Proceedings σ) : List String :=
  let pieces := p.terminal.written.splitOn '\n'
  let lines := if pieces.getLast? = some [] then pieces.dropLast else pieces
  lines.map String.ofList

/-- The logged lines down to a level, each with its level. -/
def logLines (p : Proceedings σ) (threshold : Level) : List (Level × String) :=
  (p.journal.toList.filter (·.level.within threshold)).map fun e => (e.level, e.line)

end Proceedings

/-- What is fixed for the stages of an invocation. -/
structure Staging where
  setting : Setting
  maxParallel : Nat
  workdir : String

namespace Staging

variable {σ ε : Type}

/-- What the stages of an invocation have in common. -/
def of [Matcher] (h : Host σ ε) (i : Invocation) (c : Config) (context : Context) (world : σ) :
    Staging :=
  let workdir := workingDirectory i.configPath c.options.workdir
  { setting := {
      actions := c.actions, context
      evaluator := {
        hasFile := h.hasFile world, baseDir := some workdir
        strict := i.strictVariables || c.options.strictVariables } }
    maxParallel := max 1 (i.maxParallel.getD (c.options.maxParallel.getD h.cores)), workdir }

/-- Runs a stage. -/
def runStage (h : Host σ ε) (s : Staging) (p : Proceedings σ) (g : StageGraph) :
    Proceedings σ × Conclusion :=
  let p := (p.note [Dispatcher.startedEntry]).present [.stageStarted g.stage.name g.size]
  let session : Session g ε :=
    { Session.new g s.setting s.maxParallel (h.employ p.world s.workdir p.cancelled) with
      asked := p.cancelled }
  let (session, conclusion) := Session.run
    { executor := h.executor g.size, hasFile? := fun x => some (h.hasFile (h.world x)) } h.bound session
  let p := (p.present (session.progress.toList.map .progress)).note session.journal.toList
  let p := { p with world := h.world session.executor, cancelled := session.asked }
  match conclusion with
  | .result r => (p.present [.stageFinished r], conclusion)
  | _ => (p, conclusion)

/-- The entry about a stage that fails. -/
def failedEntry (stage : String) : LogEntry :=
  ⟨.info, "stage failed; not running further stages", [("stage", .shown stage)]⟩

/-- Runs stages one after the other until one does not succeed. -/
def runAll [Toposort] (h : Host σ ε) (s : Staging) :
    List Stage → Proceedings σ → Proceedings σ × Except RunError RunOutcome
  | [], p => (p, .ok .success)
  | stage :: stages, p =>
    match StageGraph.build stage s.setting.actions with
    | .error e => (p, .error e)
    | .ok g =>
      match s.runStage h p g with
      | (p, .result r) =>
        match r.outcome with
        | .success => runAll h s stages p
        | .failed => (p.note [failedEntry stage.name], .ok .failed)
        | .terminated => (p, .ok .cancelled)
      | (p, .fault f) => (p, .error (.execution f))
      | (p, .endless) => (p, .error (.execution .stoppedReporting))

/-- Prints what the steps of stages would do. -/
def planAll [Toposort] (s : Staging) :
    List Stage → Proceedings σ → Proceedings σ × Except RunError RunOutcome
  | [], p =>
    (p.note [⟨.debug, "dry-run complete (no execution)", []⟩], .ok .success)
  | stage :: stages, p =>
    match StageGraph.build stage s.setting.actions with
    | .error e => (p, .error e)
    | .ok g => s.planAll stages (p.print (g.planLines s.setting))

end Staging

/-- The configuration in a file. -/
def Host.config [Toposort] {σ ε : Type} (h : Host σ ε) (world : σ) (path : String) :
    Except RunError Config :=
  match h.read world path with
  | .error why => .error (.unreadable ("reading file " ++ Text.quoted path ++ ": " ++ why))
  | .ok text => Config.ofWritten (h.parse text)

namespace Invocation

section
variable [Toposort] {σ ε : Type}

/-- The configuration and the chosen stages. -/
def chosen (h : Host σ ε) (i : Invocation) (world : σ) : Except RunError (Config × List Stage) := do
  let c ← h.config world i.configPath
  c.checkBuiltins (.ofList [])
  return (c, ← c.select i.stages)

/-- Carries out an invocation. -/
def carryOut [Matcher] [Platform] (h : Host σ ε) (i : Invocation) (world : σ) :
    Proceedings σ × Except RunError RunOutcome :=
  let p : Proceedings σ := { world }
  match i.chosen h world with
  | .error e => (p, .error e)
  | .ok (c, stages) =>
    if i.list then (p.print (stages.flatMap Stage.listed), .ok .success)
    else
      match i.context c h.env with
      | .error e => (p, .error e)
      | .ok context =>
        let s := Staging.of h i c context world
        let p := p.note (rawEnvLog h.env ++ [context.entry])
        if i.dryRun then s.planAll stages (p.print (planHeader s.workdir s.maxParallel))
        else s.runAll h stages { p with terminal := { p.terminal with workdir := some s.workdir } }

end

/-- The least severe level that is logged: the one asked for, or else the one that a variable of the
environment names. -/
def logThreshold (i : Invocation) (named : Option String) : Level :=
  match i.logLevel with
  | some l => l
  | none => (named.bind Level.ofText?).getD .warn

/-- The line about the version. -/
def versionLine : String := "stagerun 0.1.0"

end Invocation

namespace UsageError

/-- The exit status of a command line that is not carried out. -/
def exitStatus : UsageError → Nat
  | .displayHelp | .displayVersion => 0
  | _ => 2

/-- What is said about a command line that is not carried out. -/
def message : UsageError → String
  | .unknownArgument => "error: unexpected argument"
  | .invalidValue => "error: a value is missing or is not one of the possible values"
  | .valueValidation => "error: a value is not valid"
  | .argumentConflict => "error: an argument cannot be used with another one, or more than once"
  | .tooManyValues => "error: a flag has been given a value"
  | .displayHelp => "Usage: stagerun [OPTIONS] [STAGE]..."
  | .displayVersion => Invocation.versionLine

end UsageError

end StageFlow
