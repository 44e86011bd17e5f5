import StageFlow.Context
import StageFlow.Files.Basic

/-!
# Errors of a run

Everything that can keep stages from running, or stop them, as causes with their wording. The errors
of the configuration family arise before anything runs.
-/

namespace StageFlow

/-- What is wrong with a configuration, apart from references and cycles. -/
inductive ConfigFault where
  | noStages
  | zeroParallel
  | badVariant (action : String) (number : Nat)
  | noShape (action : String)
  | manyShapes (action : String)
  | duplicateStep (stage step : String)
  | ifAndOnly (stage step : String)
  | repeatedStep (stage step : String)
  | noLevels (index : Nat)
  | assignment (e : AssignmentError)
  | undeclaredInput (name : String)
  deriving DecidableEq

/-- The wording of a configuration fault. -/
def ConfigFault.message : ConfigFault → String
  | .noStages => "config must contain at least one [stage.<name>] section"
  | .zeroParallel => "[config].max_parallel must be >= 1 (got 0)"
  | .badVariant action number =>
    "action '" ++ action ++ "' variant #" ++ number.repr ++
      " must set exactly one of `cmd` or `builtin`"
  | .noShape action => "action '" ++ action ++ "' must set one of `cmd`, `builtin` or `variant`"
  | .manyShapes action =>
    "action '" ++ action ++ "' must set only one of `cmd`, `builtin` or `variant`"
  | .duplicateStep stage step =>
    "stage '" ++ stage ++ "' declares step '" ++ step ++
      "' more than once; give one of them a `name`"
  | .ifAndOnly stage step =>
    "step '" ++ step ++ "' in stage '" ++ stage ++ "' sets both `if` and `only`"
  | .repeatedStep stage step =>
    "stage '" ++ stage ++ "' declares step '" ++ step ++ "' more than once"
  | .noLevels index => "cycle involving step index " ++ index.repr
  | .assignment e => e.message
  | .undeclaredInput name => "--input " ++ name ++ ": no such input is declared in [inputs]"

/-- What can go wrong while a stage runs. -/
inductive ExecutionFault where
  | stoppedReporting
  | executorGone
  | refused
  | outputFailed
  deriving DecidableEq

/-- The wording of an execution fault. -/
def ExecutionFault.message : ExecutionFault → String
  | .stoppedReporting => "executor stopped reporting before the stage finished"
  | .executorGone => "executor loop is no longer running"
  | .refused => "refused"
  | .outputFailed => "output task failed"

/-- Why no stage runs, or a stage stops. -/
inductive RunError where
  | config (f : ConfigFault)
  | unknownDependency (stage step dependency : String)
  | unknownAction (stage step action : String)
  | cycle (stage : String) (members : List String)
  | unknownBuiltin (action builtin : String)
  | stageNotFound (name : String)
  | toml
  | execution (f : ExecutionFault)
  | unreadable (message : String)
  deriving DecidableEq

namespace RunError

/-- The errors that arise before anything runs. -/
def isConfig : RunError → Bool
  | .execution _ | .unreadable _ => false
  | _ => true

/-- The wording of an error. -/
def message : RunError → String
  | .config f => "Configuration error: " ++ f.message
  | .unknownDependency stage step dependency =>
    "Configuration error: unknown dependency '" ++ dependency ++ "' required by step '" ++ step ++
      "' in stage '" ++ stage ++ "'"
  | .unknownAction stage step action =>
    "Configuration error: unknown action '" ++ action ++ "' used by step '" ++ step ++
      "' in stage '" ++ stage ++ "'"
  | .cycle stage members =>
    "Configuration error: cycle in stage '" ++ stage ++ "': " ++ " -> ".intercalate members
  | .unknownBuiltin action builtin =>
    "Configuration error: action '" ++ action ++ "' references unknown builtin '" ++ builtin ++ "'"
  | .stageNotFound name => "Stage not found: " ++ name
  | .toml => "TOML parsing error"
  | .execution f => "Execution error: " ++ f.message
  | .unreadable message => message

end RunError
end StageFlow
