/-!
# How steps end

`Ending` says how a step ended, with the reason if it was skipped; `Status` is the coarser view that
reports show. `Outcome` is what an executor says about a step that ran, and `Outcome.ending` what that
means for the step.
-/

namespace StageFlow

/-- What a failure of a step means for the steps that require it: they are skipped, or the failure
counts as a warning. -/
inductive OnError where
  | stop | warn
  deriving DecidableEq

/-- The name of a policy. -/
def OnError.text : OnError → String
  | .stop => "stop"
  | .warn => "warn"

/-- The status of a step. -/
inductive Status where
  | pending | running | ok | warn | error | skipped | terminated
  deriving DecidableEq

namespace Status

/-- A status that never changes again. -/
def isTerminal : Status → Bool
  | .pending | .running => false
  | _ => true

/-- The name of a status. -/
def text : Status → String
  | .pending => "pending"
  | .running => "running"
  | .ok => "ok"
  | .warn => "warn"
  | .error => "error"
  | .skipped => "skipped"
  | .terminated => "terminated"

end Status

/-- Why a step was skipped; `blocked` names the step that failed. -/
inductive SkipReason where
  | conditionNotMet
  | noMatchingVariant
  | blocked (culprit : String)
  | cancelled
  deriving DecidableEq

namespace SkipReason

/-- Whether the steps that require a step skipped for this reason are skipped, too. -/
def cascades : SkipReason → Bool
  | .blocked _ | .cancelled => true
  | .conditionNotMet | .noMatchingVariant => false

/-- The reason in words; a blocked step names the culprit only. -/
def text : SkipReason → String
  | .conditionNotMet => "condition not met"
  | .noMatchingVariant => "no matching variant"
  | .blocked culprit => culprit
  | .cancelled => "cancelled"

end SkipReason

/-- How a step ended. -/
inductive Ending where
  | ok | warn | error | terminated
  | skipped (reason : SkipReason)
  deriving DecidableEq

namespace Ending

/-- The status of a step that ended so. -/
def status : Ending → Status
  | .ok => .ok
  | .warn => .warn
  | .error => .error
  | .terminated => .terminated
  | .skipped _ => .skipped

/-- The reason of a skipped step. -/
def skip? : Ending → Option SkipReason
  | .skipped r => some r
  | _ => none

/-- The ending of a step that failed. -/
def failed : OnError → Ending
  | .stop => .error
  | .warn => .warn

/-- Why a step cannot run if the step called `name`, which it requires, ended so. -/
def blocks? (name : String) : Ending → Option SkipReason
  | .error => some (.blocked name)
  | .terminated => some .cancelled
  | .skipped r => if r.cascades then some r else none
  | .ok | .warn => none

theorem isTerminal_status (e : Ending) : e.status.isTerminal := by cases e <;> rfl

end Ending

/-- What an executor says about a step that it ran. -/
inductive Outcome where
  | success
  | warning (message : String)
  | failed (exitCode : Option Int) (error : Option String)
  | terminated
  deriving DecidableEq

namespace Outcome

/-- How the step ends. -/
def ending (onError : OnError) : Outcome → Ending
  | .success => .ok
  | .warning _ => .warn
  | .failed _ _ => .failed onError
  | .terminated => .terminated

/-- The message that goes with the ending. -/
def message : Outcome → String
  | .success => ""
  | .warning m => m
  | .failed _ (some e) => e
  | .failed (some code) none => "exited with status " ++ toString code
  | .failed none none => "failed"
  | .terminated => "terminated"

/-- The error that the step met while it ran. -/
def error? : Outcome → Option String
  | .failed _ e => e
  | _ => none

end Outcome

/-- The two streams that a step writes to. -/
inductive Channel where
  | out | err
  deriving DecidableEq

/-- A complete line that a step wrote. -/
structure Line where
  channel : Channel
  text : String
  deriving DecidableEq

end StageFlow
