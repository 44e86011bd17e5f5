import StageFlow.Report
import StageFlow.Text.Record

/-!
# Events

`StepEvent` is what happens to steps, in the order in which it happens; `ProgressEvent` is what is
shown, step by step in declaration order; `Signal` is what reaches a run from outside.
-/

namespace StageFlow

/-- Something that happened to a step. -/
inductive StepEvent where
  | started (step : String)
  | output (step : String) (line : Line)
  | finished (step : String) (summary : Summary)
  deriving DecidableEq

/-- The step that an event is about. -/
def StepEvent.step : StepEvent → String
  | .started s | .output s _ | .finished s _ => s

/-- Something that is shown. -/
inductive ProgressEvent where
  | start (step : String)
  | output (step : String) (line : Line)
  | finish (step : String) (summary : Summary)
  deriving DecidableEq

/-- What reaches a running stage from outside: reports of the executor, or a cancellation. -/
inductive Signal where
  | output (step : String) (line : Line)
  | completed (step : String) (outcome : Outcome) (duration : Duration)
  | cancel
  deriving DecidableEq

/-- An outcome for a reader. -/
def Outcome.shownText : Outcome → String
  | .success => "Success"
  | .warning m => Text.wrapped "Warning" (Text.quoted m)
  | .failed code error =>
    Text.record "Failed"
      [("exit_code", Text.optional (code.map toString)),
        ("error", Text.optional (error.map Text.quoted))]
  | .terminated => "Terminated"

/-- A line for a reader. -/
def Line.shownText (l : Line) : String :=
  let stream := match l.channel with
    | .out => "Stdout"
    | .err => "Stderr"
  Text.record "OutputLine" [("stream", stream), ("text", Text.quoted l.text)]

/-- A signal for a reader. -/
def Signal.shownText : Signal → String
  | .output step line =>
    Text.record "StepOutput" [("step", Text.quoted step), ("line", line.shownText)]
  | .completed step outcome duration =>
    Text.record "StepCompleted" [("step", Text.quoted step), ("outcome", outcome.shownText),
      ("duration", duration.exact)]
  | .cancel => "CancelRequested"

end StageFlow
