import StageFlow.Event
import StageFlow.Executor.Lines
import StageFlow.Log
import StageFlow.Shell.Program

/-!
# Running a command

What goes on around the program of a step, one move at a time. The program writes to two channels, each
with a reader that takes complete lines and passes them on. The program ends by itself, or it is told to
stop and is killed. Then the readers are waited for, the one of the first channel before the other;
behind a killed program, whose channels somebody may keep open, that takes a limited time, and a reader
that has none left is told to stop. Last the end of the step is reported. `CommandRun.next?` says which
moves are possible and what comes of them; in which order possible moves happen is left open.
-/

namespace StageFlow

/-- A channel of a program, with its reader. -/
structure Feed where
  /-- What has been written and not been read. -/
  unread : List UInt8 := []
  /-- More may be written. -/
  isOpen : Bool := true
  /-- A line that has been read and not been passed on. -/
  held : Option String := none
  /-- The reader is at work. -/
  reading : Bool := true
  /-- The reader is not waited for any more, and has been told to stop. -/
  abandoned : Bool := false

/-- The channel of a program that there is not. -/
def Feed.absent : Feed := { isOpen := false, reading := false }

/-- How far the run of a command is. -/
inductive Phase where
  | running
  /-- The program has ended, and its readers are waited for. -/
  | draining (outcome : Outcome)
  | over
  deriving DecidableEq

/-- The run of a command. -/
structure CommandRun where
  step : String
  out : Feed := {}
  err : Feed := {}
  phase : Phase := .running
  /-- It is to stop. -/
  told : Bool := false

namespace CommandRun

/-- The run of a command whose program cannot be started. -/
def unstarted (step message : String) : CommandRun :=
  { step, out := .absent, err := .absent, phase := .draining (.failed none (some message)) }

/-- Something that may happen. -/
inductive Move where
  /-- The program, or one that it has started, writes. -/
  | write (c : Channel) (bytes : List UInt8)
  /-- Nobody can write to a channel any more. -/
  | close (c : Channel)
  /-- The reader of a channel looks for the next line. -/
  | read (c : Channel)
  /-- The reader of a channel passes on the line that it has read. -/
  | pass (c : Channel)
  /-- The reader of a channel stops, as it has been told to. -/
  | stop (c : Channel)
  /-- Somebody asks for the run to stop. -/
  | tell
  /-- The program is found to have ended. -/
  | exit (status : ExitStatus)
  /-- The request to stop is noticed, and the program is killed. -/
  | kill
  /-- The time for the reader that is waited for is up. -/
  | giveUp
  /-- The end of the step is reported, with the time it took. -/
  | report (duration : Duration)

/-- What comes of a move. -/
structure Effect where
  signals : List Signal := []
  log : List LogEntry := []

/-- What comes of one thing after the other. -/
def Effect.append (e e' : Effect) : Effect := ⟨e.signals ++ e'.signals, e.log ++ e'.log⟩

/-- The state of a channel. -/
def feed (r : CommandRun) : Channel → Feed
  | .out => r.out
  | .err => r.err

/-- Replaces the state of a channel. -/
def setFeed (r : CommandRun) (c : Channel) (f : Feed) : CommandRun :=
  match c with
  | .out => { r with out := f }
  | .err => { r with err := f }

/-- The reader that is waited for, once the program has ended. -/
def awaited? (r : CommandRun) : Option Channel :=
  if r.out.reading && !r.out.abandoned then some .out
  else if r.err.reading && !r.err.abandoned then some .err
  else none

/-- The outcome of a program that has ended by itself. -/
def outcomeOf (status : ExitStatus) : Outcome :=
  if status = .code 0 then .success else .failed status.code? none

/-- A log entry about the step. -/
def entry (r : CommandRun) (level : Level) (message : String)
    (fields : List (String × LogValue) := []) : LogEntry :=
  ⟨level, message, ("step", .shown r.step) :: fields⟩

/-- The entry about the end of a program. -/
def exitEntry (r : CommandRun) (status : ExitStatus) : LogEntry :=
  r.entry .info "step process exited"
    [("exit_code", .shown (Text.optional (status.code?.map toString))),
      ("success", .shown (toString (decide (status = .code 0))))]

/-- The entry about a line that is not text. -/
def invalidEntry (r : CommandRun) : LogEntry :=
  r.entry .debug "error reading step output" [("error", .shown "stream did not contain valid UTF-8")]

/-- What comes of a reader looking for the next line: it has to have passed on the line before. -/
def read? (r : CommandRun) (c : Channel) : Option (CommandRun × Effect) :=
  let f := r.feed c
  if f.reading && f.held.isNone then
    match Reading.next f.unread f.isOpen with
    | (.waiting, _) => none
    | (.line text, rest) => some (r.setFeed c { f with unread := rest, held := some text }, {})
    | (.over, rest) => some (r.setFeed c { f with unread := rest, reading := false }, {})
    | (.invalid, rest) => some
        (r.setFeed c { f with unread := rest, reading := false }, { log := [r.invalidEntry] })
  else none

/-- What comes of a reader passing on the line that it has read. -/
def pass? (r : CommandRun) (c : Channel) : Option (CommandRun × Effect) :=
  let f := r.feed c
  match f.reading, f.held with
  | true, some text => some
      (r.setFeed c { f with held := none }, { signals := [.output r.step ⟨c, text⟩] })
  | _, _ => none

/-- What comes of a move, if it is possible. -/
def next? (r : CommandRun) : Move → Option (CommandRun × Effect)
  | .write c bytes =>
    let f := r.feed c
    if f.isOpen && f.reading then
      some (r.setFeed c { f with unread := f.unread ++ bytes }, {})
    else none
  | .close c =>
    let f := r.feed c
    if f.isOpen then some (r.setFeed c { f with isOpen := false }, {}) else none
  | .read c => r.read? c
  | .pass c => r.pass? c
  | .stop c =>
    let f := r.feed c
    if f.reading && f.abandoned then
      some (r.setFeed c { f with held := none, reading := false }, {})
    else none
  | .tell => some ({ r with told := true }, {})
  | .exit status =>
    if r.phase = .running then
      some ({ r with phase := .draining (outcomeOf status) }, { log := [r.exitEntry status] })
    else none
  | .kill =>
    if r.phase = .running && r.told then
      some ({ r with phase := .draining .terminated },
        { log := [r.entry .info "cancellation requested; killing step process"] })
    else none
  | .giveUp =>
    match r.phase, r.awaited? with
    | .draining .terminated, some c => some
        (r.setFeed c { r.feed c with abandoned := true },
          { log := [r.entry .warn "output pipe still open after kill; abandoning reader"] })
    | _, _ => none
  | .report duration =>
    match r.phase, r.awaited? with
    | .draining outcome, none => some
        ({ r with phase := .over }, { signals := [.completed r.step outcome duration] })
    | _, _ => none

/-- A reader looks for the next line and passes it on. -/
def forward? (r : CommandRun) (c : Channel) : Option (CommandRun × Effect) := do
  let (r, found) ← r.next? (.read c)
  match r.next? (.pass c) with
  | some (r, passed) => return (r, found.append passed)
  | none => return (r, found)

/-- The reader that is waited for is given up, and stops. -/
def abandon? (r : CommandRun) : Option (CommandRun × Effect) := do
  let c ← r.awaited?
  let (r, given) ← r.next? .giveUp
  let (r, stopped) ← r.next? (.stop c)
  return (r, given.append stopped)

end CommandRun
end StageFlow
