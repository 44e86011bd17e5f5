import StageFlow.Executor.Basic
import StageFlow.Presentation.Presenter
import StageFlow.StageRun.Course
import StageFlow.StageRun.Journal

/-!
# Sessions

A session carries a run through with an executor and a presenter: commands to launch and to terminate
go to the executor, what happened to steps goes to the presenter, and what the presenter shows may
itself ask for a cancellation. `Session.run` is the whole of it, from the start of the run until every
step is over, the executor fails, or nothing will ever happen any more.
-/

namespace StageFlow

/-- How a session ends. -/
inductive Conclusion where
  | result (r : StageResult)
  | fault (f : ExecutionFault)
  /-- Steps run that will never end. -/
  | endless

/-- A session in progress. -/
structure Session (g : StageGraph) (σ : Type) where
  course : Course g
  presenter : Presenter
  executor : σ
  queue : List Signal := []
  asked : Bool := false
  /-- What has been shown. -/
  progress : Array ProgressEvent := #[]
  journal : Array LogEntry := #[]

/-- What is fixed for a session. -/
structure Stagehand (n : Nat) (σ : Type) where
  executor : Executor n σ
  /-- Which of the events that are shown ask for a cancellation. -/
  asksToCancel : ProgressEvent → Bool := fun _ => false
  /-- Which files expressions see, if those are not the same all the time. -/
  hasFile? : σ → Option (String → Bool) := fun _ => none

namespace Session

variable {g : StageGraph} {σ : Type}

/-- Adds log entries. -/
def note (s : Session g σ) (entries : List LogEntry) : Session g σ :=
  { s with journal := s.journal ++ entries }

/-- Notes a request to cancel the run, and passes it on to the executor the first time. -/
def ask (h : Stagehand g.size σ) (s : Session g σ) : Session g σ :=
  if s.asked then s else { s with asked := true, executor := h.executor.cancel s.executor }

/-- Shows progress. -/
def display (h : Stagehand g.size σ) (s : Session g σ) (es : List ProgressEvent) : Session g σ :=
  let s := { s with progress := s.progress ++ es }
  if es.any h.asksToCancel then s.ask h else s

/-- Takes the answer of the executor. -/
def heed (s : Session g σ) :
    Except ExecutionFault (σ × List LogEntry) → Session g σ × Option ExecutionFault
  | .error f => (s, some f)
  | .ok (executor, entries) => ({ s with executor }.note entries, none)

/-- Carries out a command, which may fail. -/
def perform (h : Stagehand g.size σ) (s : Session g σ) :
    Command g.size → Session g σ × Option ExecutionFault
  | .launch ls =>
    let names := Text.listed (ls.map fun l => Text.quoted l.name)
    let s := s.note [⟨.debug, "spawning ready steps", [shown "names" names]⟩]
    s.heed (h.executor.launch ls s.executor)
  | .tell e =>
    let (presenter, es) := s.presenter.handle e
    (({ s with presenter }.note (s.presenter.journal e)).display h es, none)
  | .terminate =>
    let s := s.note [⟨.info, "terminating running steps", [shown "stage" g.stage.name]⟩]
    s.heed (h.executor.terminate s.executor)

/-- Carries out commands in order until one fails; what has been done before stays done. -/
def performAll (h : Stagehand g.size σ) (s : Session g σ) :
    List (Command g.size) → Session g σ × Option ExecutionFault
  | [] => (s, none)
  | c :: cs =>
    match s.perform h c with
    | (s, some f) => (s, some f)
    | (s, none) => performAll h s cs

/-- Lets the run see the files that there are now. -/
def look (h : Stagehand g.size σ) (s : Session g σ) : Session g σ :=
  match h.hasFile? s.executor with
  | none => s
  | some hasFile =>
    let r := s.course.run
    let setting := r.scheduler.setting
    let setting := { setting with evaluator := { setting.evaluator with hasFile } }
    { s with course := { s.course with run := { r with scheduler := { r.scheduler with setting } } } }

/-- Takes a signal. -/
def takeSignal (h : Stagehand g.size σ) (s : Session g σ) (signal : Signal) (queue : List Signal) :
    Session g σ × Option ExecutionFault :=
  let s := s.look h
  let (course, commands) := s.course.take signal
  let entries := ⟨.debug, "runtime received event", [shown "event" signal.shownText]⟩ ::
    s.course.run.journal signal
  performAll h ({ s with course, queue }.note entries) commands

/-- The entry about a run that is lost. -/
def lostEntry (r : StageRun g) : LogEntry :=
  ⟨.warn, "runtime event channel closed with steps outstanding",
    [shown "stage" g.stage.name, shown "running" r.scheduler.runningCount.repr]⟩

/-- Goes on until the session ends; the bound exceeds the number of things that happen. -/
def proceed (h : Stagehand g.size σ) : Nat → Session g σ → Session g σ × Conclusion
  | 0, s => (s, .endless)
  | bound + 1, s =>
    match s.course.next s.asked s.queue (h.executor.closed s.executor) with
    | .over =>
      let r := s.course.run.result (.ofMillis (h.executor.clock s.executor))
      (s.note [⟨.info, "stage run finished",
        [shown "stage" r.stage, shown "outcome" r.outcome.text]⟩], .result r)
    | .lost => (s.note [lostEntry s.course.run], .fault .stoppedReporting)
    | .signal signal queue =>
      match s.takeSignal h signal queue with
      | (s, some f) => (s, .fault f)
      | (s, none) => proceed h bound s
    | .idle =>
      match h.executor.advance s.executor with
      | none => (s, .endless)
      | some (happening, executor) =>
        let s := { s with executor, queue := s.queue ++ happening.signals }.note happening.log
        proceed h bound (if happening.cancels then s.ask h else s)

/-- Shows what is held back at the end. -/
def close (s : Session g σ) : Session g σ :=
  let (presenter, es) := s.presenter.finish
  let flushed := if es.isEmpty then [] else
    [⟨.debug, "flushing held-back progress at end of stage", [shown "count" es.length.repr]⟩]
  { s with presenter, progress := s.progress ++ es }.note (s.presenter.finishJournal ++ flushed)

/-- A session before the start of the run. -/
def new (g : StageGraph) (setting : Setting) (maxParallel : Nat) (executor : σ) : Session g σ :=
  { course := .new g setting maxParallel, presenter := .new g.stage.names, executor }

/-- Begins the run. -/
def start (h : Stagehand g.size σ) (s : Session g σ) : Session g σ × Option ExecutionFault :=
  let s := s.look h
  let (course, commands) := s.course.start
  let entries := ⟨.info, "stage run started", [shown "stage" g.stage.name]⟩ ::
    s.course.run.startJournal
  performAll h ({ s with course }.note entries) commands

/-- Carries a run through. -/
def run (h : Stagehand g.size σ) (bound : Nat) (s : Session g σ) : Session g σ × Conclusion :=
  match s.start h with
  | (s, some f) => (s.close, .fault f)
  | (s, none) =>
    match s.proceed h bound with
    | (s, .endless) => (s, .endless)
    | (s, conclusion) => (s.close, conclusion)

/-- What comes of a session whose audience fails at the first thing that it is shown. -/
def unheard (s : Session g σ) (conclusion : Conclusion) : Conclusion :=
  match conclusion with
  | .endless => .endless
  | conclusion => if s.progress.isEmpty then conclusion else .fault .outputFailed

end Session
end StageFlow
