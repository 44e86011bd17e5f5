import StageFlow.Duration
import StageFlow.Status

/-!
# Reports

What is known about a step at the end of a run, what of it is shown, and the result of a whole stage.
-/

namespace StageFlow

/-- What is shown when a step has ended. -/
structure Summary where
  status : Status
  message : String
  skip : Option SkipReason
  duration : Duration
  command : Option String
  deriving DecidableEq

/-- The summary of a step that never reported its end. -/
def Summary.terminated : Summary := ⟨.terminated, "terminated", none, .zero, none⟩

/-- All that is known about a step. -/
structure StepResult where
  name : String
  status : Status := .pending
  /-- A short explanation; empty for plain successes. -/
  message : String := ""
  /-- The error that the step met. -/
  error : Option String := none
  duration : Duration := .zero
  /-- The lines written, in order. -/
  output : List Line := []
  skip : Option SkipReason := none
  /-- What was launched, for steps that were. -/
  command : Option String := none
  deriving DecidableEq

namespace StepResult

/-- The message to show: the error if there is one, else the message, else the status in words. -/
def displayMessage (r : StepResult) : String :=
  match r.error with
  | some e => if e ≠ "" then e else fallback
  | none => fallback
where
  fallback : String :=
    if r.message ≠ "" then r.message
    else if r.status = .error then "failed"
    else r.status.text

/-- What is shown of a result. -/
def summary (r : StepResult) : Summary :=
  ⟨r.status, r.displayMessage, r.skip, r.duration, r.command⟩

end StepResult

/-- How many steps ended in which way. -/
structure Counts where
  ok : Nat
  warn : Nat
  error : Nat
  skipped : Nat
  terminated : Nat
  deriving DecidableEq

/-- The counts in words; terminated steps are named only if there are some. -/
def Counts.text (c : Counts) : String :=
  c.ok.repr ++ " ok, " ++ c.warn.repr ++ " warn, " ++ c.error.repr ++ " error, " ++
    c.skipped.repr ++ " skipped" ++
    if 0 < c.terminated then ", " ++ c.terminated.repr ++ " terminated" else ""

/-- How a stage ended. -/
inductive StageOutcome where
  | success | failed | terminated
  deriving DecidableEq

/-- The name of an outcome. -/
def StageOutcome.text : StageOutcome → String
  | .success => "ok"
  | .failed => "error"
  | .terminated => "terminated"

/-- The results of all steps of a stage, in declaration order. -/
structure StageResult where
  stage : String
  steps : List StepResult
  duration : Duration
  cancelled : Bool
  deriving DecidableEq

namespace StageResult

/-- How many steps have a status. -/
def count (r : StageResult) (s : Status) : Nat := r.steps.countP (·.status = s)

/-- How many steps ended in which way. -/
def counts (r : StageResult) : Counts :=
  ⟨r.count .ok, r.count .warn, r.count .error, r.count .skipped, r.count .terminated⟩

/-- No step ended in an error. -/
def success (r : StageResult) : Bool := r.steps.all (·.status ≠ .error)

/-- A cancelled stage counts as terminated, whatever its steps did. -/
def outcome (r : StageResult) : StageOutcome :=
  if r.cancelled then .terminated else if r.success then .success else .failed

/-- The result of the first step with a name. -/
def step? (r : StageResult) (name : String) : Option StepResult := r.steps.find? (·.name = name)

/-- One line about the stage. -/
def summaryLine (r : StageResult) : String :=
  "stage '" ++ r.stage ++ "' " ++ r.outcome.text ++ ": " ++ r.counts.text ++ " in " ++
    r.duration.rounded

end StageResult
end StageFlow
