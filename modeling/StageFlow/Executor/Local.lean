import StageFlow.Executor.Basic
import StageFlow.Executor.Builtin
import StageFlow.Executor.CommandRun
import StageFlow.Executor.Dispatcher
import StageFlow.Shell.Run

/-!
# Local executors

A local executor runs the commands of steps in shells on a disk that they share, and builtins by itself.
Every runner makes one move at a time; the runner that was started first goes first. Where no runner can
move, time passes until one of them can. A program that waits keeps its time; all else takes none.
-/

namespace StageFlow

/-- The runner of a job. -/
inductive Task where
  /-- A command with the rest of its program, if that has not ended. -/
  | command (run : CommandRun) (rest : Option (Program ExitStatus))
  /-- A builtin, with what it has seen at its moves so far. -/
  | builtin (name : String) (next : List Bool → BuiltinMove) (seen : List Bool)
  /-- The end is to be reported. -/
  | ended (outcome : Outcome)

/-- A runner at work. -/
structure Worker where
  job : Job
  /-- The number by which the dispatcher knows it, if it was the dispatcher that started it. -/
  number : Option Nat := none
  task : Task
  started : Nat
  /-- Until when it waits. -/
  wake : Nat
  /-- It waits for another program, which a kill does not reach. -/
  elsewhere : Bool := false
  /-- Until when the reader that is waited for has time. -/
  grace : Nat := 0
  /-- It has been told to stop by someone other than the dispatcher. -/
  told : Bool := false

/-- Where steps run, and who listens. -/
structure Workplace where
  /-- The directory of the steps, as it is shown. -/
  workdir : String
  /-- The current directory. -/
  cwd : Place
  env : List (String × String) := []
  builtins : Table Builtin := Table.empty
  /-- A cancellation of the run stops the runners. -/
  attached : Bool := true
  /-- Requests are taken. -/
  serving : Bool := true
  /-- Somebody takes the reports. -/
  heard : Bool := true

/-- A local executor. -/
structure LocalExecutor where
  place : Workplace
  disk : Disk
  now : Nat := 0
  dispatcher : Dispatcher := {}
  workers : List Worker := []
  /-- A program has interrupted the run. -/
  interrupted : Bool := false

/-- Why a program cannot be started. -/
inductive SpawnFault where
  | disk (f : DiskFault)
  | nul
  deriving DecidableEq

/-- The wording of a failed start. -/
def SpawnFault.message (step : String) (f : SpawnFault) : String :=
  "spawning process for step '" ++ step ++ "': " ++ match f with
    | .disk f => f.message
    | .nul => "nul byte found in provided data"

namespace LocalExecutor

/-- How long a reader has behind a killed program, in milliseconds. -/
def graceTime : Nat := 2000

/-- The program of a command in a directory. -/
def program (w : Workplace) (cwd : Place) (job : Job) (command : String) : Program ExitStatus :=
  let given := w.env ++ job.env.entries
  let own : Table Variable := Table.ofList [("IFS", { text := " \t\n" }), ("PWD", { text := cwd.text })]
  Shell.script
    { vars := own.insertAll (given.map fun e => (e.1, { text := e.2, exported := true })), cwd }
    command

/-- Starts the program of a command. -/
def spawn (x : LocalExecutor) (job : Job) (command : String) :
    Except SpawnFault (Program ExitStatus) := do
  let hasNul (text : String) : Bool := text.contains (Char.ofNat 0)
  if hasNul command || job.env.entries.any (fun e => hasNul e.1 || hasNul e.2) then throw .nul
  match x.disk.directory x.place.cwd x.place.workdir with
  | .error f => throw (.disk f)
  | .ok cwd => return program x.place cwd job command

/-- A log entry about a step. -/
def entry (level : Level) (message step : String) (fields : List (String × LogValue) := []) : LogEntry :=
  ⟨level, message, ("step", .shown step) :: fields⟩

/-- The entry about an error that ends a step. -/
def errorEntry (step message : String) : LogEntry :=
  entry .error "step execution error" step [("error", .shown message)]

/-- Starts the runner of a job. -/
def begin (x : LocalExecutor) (job : Job) : Task × List LogEntry :=
  match job.run with
  | .command text =>
    let starting := entry .info "starting step process" job.step
      [("cmd", .shown text), ("workdir", .shown x.place.workdir)]
    match x.spawn job text with
    | .ok p => (.command { step := job.step } (some p), [starting])
    | .error f =>
      let message := f.message job.step
      (.command (.unstarted job.step message) none, [starting, errorEntry job.step message])
  | .builtin name =>
    match x.place.builtins.get? name with
    | none => (.ended (.failed none (some (Builtin.unknownText name))), [])
    | some b =>
      (.builtin name (b job) [], [entry .info "starting builtin" job.step [("builtin", .shown name)]])

/-- Takes on a job, as the runner of a number if the dispatcher started it. -/
def take (x : LocalExecutor) (job : Job) (number : Option Nat) (told : Bool := false) :
    LocalExecutor × List LogEntry :=
  let (task, log) := x.begin job
  ({ x with workers := x.workers ++ [{ job, number, task, started := x.now, wake := x.now, told }] }, log)

/-- Takes a request to run a job. -/
def request (x : LocalExecutor) (job : Job) : LocalExecutor × List LogEntry :=
  match x.dispatcher.start job.step with
  | (dispatcher, none) => ({ x with dispatcher }, [Dispatcher.ignoredEntry job.step])
  | (dispatcher, some n) => { x with dispatcher }.take job (some n)

/-- Takes requests to run jobs. -/
def requestAll (x : LocalExecutor) (jobs : List Job) :
    Except ExecutionFault (LocalExecutor × List LogEntry) :=
  if x.place.serving || jobs.isEmpty then
    .ok (jobs.foldl (fun (x, log) job =>
      let (x, more) := x.request job
      (x, log ++ more)) (x, []))
  else .error .executorGone

/-- Takes a request to terminate what runs. -/
def terminate (x : LocalExecutor) : Except ExecutionFault (LocalExecutor × List LogEntry) :=
  if x.place.serving then
    .ok ({ x with dispatcher := x.dispatcher.terminate }, x.dispatcher.terminateJournal)
  else .error .executorGone

/-- The run is cancelled. -/
def cancel (x : LocalExecutor) : LocalExecutor :=
  if x.place.attached then { x with dispatcher := x.dispatcher.cancel } else x

/-- Whether a worker is to stop. -/
def isTold (x : LocalExecutor) (w : Worker) : Bool := w.told || w.number.any x.dispatcher.isTold

/-- What happens when a worker reports: what nobody takes is dropped. -/
def reported (x : LocalExecutor) (step : String) (e : CommandRun.Effect) : Happening :=
  if x.place.heard then { signals := e.signals, log := e.log }
  else
    { log := e.log ++ e.signals.map fun
        | .completed _ _ _ =>
          entry .warn "runtime gone before step completion could be reported" step
        | _ => entry .debug "runtime gone; dropping output line" step }

/-- The time that a worker has taken. -/
def elapsed (x : LocalExecutor) (w : Worker) : Duration := .ofMillis (x.now - w.started)

/-- Puts a worker in the place of the one at a position. -/
def put (x : LocalExecutor) (i : Nat) (w : Worker) : LocalExecutor :=
  { x with workers := x.workers.set i w }

/-- Takes away the worker at a position. -/
def dismiss (x : LocalExecutor) (i : Nat) (w : Worker) : LocalExecutor :=
  { x with workers := x.workers.eraseIdx i, dispatcher := w.number.elim x.dispatcher x.dispatcher.finish }

/-- Reports the end of a worker. -/
def conclude (x : LocalExecutor) (i : Nat) (w : Worker) (e : CommandRun.Effect) :
    Happening × LocalExecutor :=
  let h := x.reported w.job.step e
  let log := if w.number.isSome then [Dispatcher.finishedEntry w.job.step] else []
  ({ h with log := h.log ++ log }, x.dismiss i w)

/-- The entry about an interruption. -/
def interruptEntry : LogEntry := ⟨.info, "Ctrl+C received; cancelling run", []⟩

/-- The log of an interruption: only the first one is noticed. -/
def interruption (x : LocalExecutor) : Happening :=
  if x.interrupted then {} else { cancels := true, log := [interruptEntry] }

/-- A program makes a step. -/
def advanceProgram (x : LocalExecutor) (i : Nat) (w : Worker) (run : CommandRun) :
    Program ExitStatus → Option (Happening × LocalExecutor)
  | .done status => do
    let (run, e) ← run.next? (.exit status)
    some (x.reported w.job.step e, x.put i { w with task := .command run none })
  | .ask (.write c bytes) go =>
    let (run, taken) := match run.next? (.write c bytes) with
      | some (run, _) => (run, true)
      | none => (run, false)
    some ({}, x.put i { w with task := .command run (some (go taken)) })
  | .ask .look go => some ({}, x.put i { w with task := .command run (some (go x.disk)) })
  | .ask (.change f) go =>
    let (disk, fault) := match f x.disk with
      | .ok d => (d, none)
      | .error fault => (x.disk, some fault)
    some ({}, { x with disk }.put i { w with task := .command run (some (go fault)) })
  | .ask (.pause ms elsewhere) go => some
      ({}, x.put i { w with task := .command run (some (go ())), wake := x.now + ms, elsewhere })
  | .ask .interrupt go => some
      (x.interruption, { x with interrupted := true }.put i { w with task := .command run (some (go ())) })

/-- Closes the channels of a program that has ended. -/
def closeAll (run : CommandRun) : CommandRun :=
  let close (run : CommandRun) (c : Channel) : CommandRun :=
    ((run.next? (.close c)).map (·.1)).getD run
  close (close run .out) .err

/-- A move of the runner of a command: reading goes before all else, and a request to stop before the
program. -/
def moveCommand (x : LocalExecutor) (i : Nat) (w : Worker) (run : CommandRun)
    (rest : Option (Program ExitStatus)) : Option (Happening × LocalExecutor) :=
  let run := if x.isTold w && !run.told then ((run.next? .tell).map (·.1)).getD run else run
  let step := w.job.step
  match (run.forward? .out).orElse fun _ => run.forward? .err with
  | some (run, e) => some (x.reported step e, x.put i { w with task := .command run rest })
  | none =>
    match run.next? .kill with
    | some (run, e) =>
      let wake := if w.elsewhere then w.wake else x.now
      some (x.reported step e,
        x.put i { w with task := .command run none, wake, grace := x.now + graceTime })
    | none =>
      match rest with
      | some p => if w.wake ≤ x.now then x.advanceProgram i w run p else none
      | none =>
        if w.wake ≤ x.now && (run.out.isOpen || run.err.isOpen) then
          some ({}, x.put i { w with task := .command (closeAll run) none })
        else
          match run.next? (.report (x.elapsed w)) with
          | some (_, e) => some (x.conclude i w e)
          | none =>
            if x.now < w.grace then none
            else do
              let (run, e) ← run.abandon?
              some (x.reported step e,
                x.put i { w with task := .command run none, grace := x.now + graceTime })

/-- A move of a builtin: where it panics, nobody hears of its end. -/
def moveBuiltin (x : LocalExecutor) (i : Nat) (w : Worker) (name : String)
    (next : List Bool → BuiltinMove) (seen : List Bool) : Option (Happening × LocalExecutor) :=
  let onward := x.put i { w with task := .builtin name next (x.isTold w :: seen) }
  match next seen with
  | .write line => some (x.reported w.job.step { signals := [.output w.job.step line] }, onward)
  | .look => some ({}, onward)
  | .awaitStop => if x.isTold w then some ({}, onward) else none
  | .done outcome => some (x.conclude i w { signals := [.completed w.job.step outcome (x.elapsed w)] })
  | .error causes =>
    let message := Builtin.errorText name causes
    some (x.conclude i w
      { signals := [.completed w.job.step (.failed none (some message)) (x.elapsed w)]
        log := [errorEntry w.job.step message] })
  | .panic => some ({}, x.dismiss i w)

/-- A move of the worker at a position, if it can make one. -/
def move (x : LocalExecutor) (i : Nat) (w : Worker) : Option (Happening × LocalExecutor) :=
  match w.task with
  | .command run rest => x.moveCommand i w run rest
  | .builtin name next seen => x.moveBuiltin i w name next seen
  | .ended outcome => some (x.conclude i w { signals := [.completed w.job.step outcome (x.elapsed w)] })

/-- The next moment at which a worker may be able to move. -/
def nextMoment? (x : LocalExecutor) : Option Nat :=
  (x.workers.flatMap fun w => [w.wake, w.grace].filter (x.now < ·)).min?

/-- Goes on to the next thing that happens. -/
def advance (x : LocalExecutor) : Option (Happening × LocalExecutor) :=
  match x.workers.zipIdx.findSome? fun (w, i) => x.move i w with
  | some r => some r
  | none => x.nextMoment?.map fun t => ({}, { x with now := t })

/-- The operations of local executors. -/
def operations (n : Nat) : Executor n LocalExecutor where
  launch ls x := x.requestAll (ls.map Launch.job)
  terminate x := x.terminate
  cancel := cancel
  advance := advance
  closed _ := false
  clock x := x.now

/-- Goes on until nothing will ever happen any more, and collects the reports; the bound exceeds the
number of things that happen. -/
def finishAll : Nat → LocalExecutor → List Signal × List LogEntry
  | 0, _ => ([], [])
  | bound + 1, x =>
    match x.advance with
    | none => ([], [])
    | some (h, x) =>
      let (signals, log) := finishAll bound x
      (h.signals ++ signals, h.log ++ log)

end LocalExecutor
end StageFlow
