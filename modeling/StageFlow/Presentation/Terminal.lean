import StageFlow.Event
import StageFlow.Log

/-!
# Progress as text

How progress reads on a terminal. A terminal may stop taking text after a number of lines, or refuse
to pass on what it took; either is noted for each message and does not stop the run.
-/

namespace StageFlow

/-- What is written about a run. -/
inductive Notice where
  | stageStarted (stage : String) (steps : Nat)
  | progress (e : ProgressEvent)
  | stageFinished (r : StageResult)

namespace Notice

/-- The line about the end of a step. -/
def finishLine (step : String) (s : Summary) : String :=
  match s.status with
  | .ok => "<== " ++ step ++ " ok (" ++ s.duration.rounded ++ ")"
  | .skipped =>
    "<== " ++ step ++ " skipped (" ++ (s.skip.map SkipReason.text).getD s.message ++ ")"
  | status =>
    "<== " ++ step ++ " " ++ status.text ++ ": " ++ s.message ++ " (" ++ s.duration.rounded ++ ")"

/-- How a failed command can be run again. -/
def rerunLine (workdir : Option String) (command : String) : String :=
  match workdir with
  | some dir => "    re-run: cd " ++ dir ++ " && " ++ command
  | none => "    re-run: " ++ command

/-- The lines of a message. -/
def lines (workdir : Option String) : Notice → List String
  | .stageStarted stage steps => ["stage '" ++ stage ++ "' (" ++ steps.repr ++ " steps)"]
  | .progress (.start step) => ["==> " ++ step]
  | .progress (.output _ ⟨.out, text⟩) => ["    | " ++ text]
  | .progress (.output _ ⟨.err, text⟩) => ["    ! " ++ text]
  | .progress (.finish step s) =>
    finishLine step s ::
      if s.status = .error then (s.command.map (rerunLine workdir)).toList else []
  | .stageFinished r => [r.summaryLine]

/-- The text of a message, every line ended. -/
def text (workdir : Option String) (n : Notice) : List Char :=
  (n.lines workdir).flatMap fun l => l.toList ++ ['\n']

end Notice

/-- A terminal with what has been written to it. -/
structure Terminal where
  workdir : Option String := none
  /-- The number of line ends after which nothing more is taken. -/
  capacity : Option Nat := none
  /-- What is written is not passed on. -/
  flushFails : Bool := false
  written : List Char := []

namespace Terminal

/-- The part of a text up to its `n`-th line end, and whether that is all of it. -/
def fitting : Nat → List Char → List Char × Bool
  | _, [] => ([], true)
  | 0, _ :: _ => ([], false)
  | n + 1, c :: cs =>
    let (taken, all) := fitting (if c = '\n' then n else n + 1) cs
    (c :: taken, all)

/-- Writes a message and says why that failed, if it did. Progress is passed on at once. -/
def write (t : Terminal) (n : Notice) : Terminal × Option String :=
  let text := n.text t.workdir
  let (taken, all) := match t.capacity with
    | none => (text, true)
    | some c => fitting (c - t.written.count '\n') text
  let passedOn := match n with
    | .progress _ => !t.flushFails
    | _ => true
  ({ t with written := t.written ++ taken },
    if !all then some "disk full" else if !passedOn then some "flush failed" else none)

/-- The entry about a message that could not be written. -/
def failureEntry (cause : String) : LogEntry :=
  ⟨.warn, "failed to write progress", [("error", .shown cause)]⟩

end Terminal
end StageFlow
