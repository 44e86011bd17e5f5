import StageFlow.Action
import StageFlow.Status

/-!
# Stages

A stage is a row of steps. A step places an action in a stage, names the steps of the same stage that
it requires, and may have a condition.
-/

namespace StageFlow

/-- When a step applies: if an expression holds, or if one of some labels is active. -/
inductive Condition where
  | expr (text : String)
  | labels (ls : List String)
  deriving DecidableEq

/-- Whether a condition holds. -/
def Condition.holds (ev : Evaluator) (c : Context) : Condition → Except ExprError Bool
  | .expr text => ev.test c text
  | .labels ls => .ok (ls.any c.hasLabel)

/-- An action in its place. -/
structure Step where
  name : String
  action : String
  requires : List String := []
  onError : OnError := .stop
  condition : Option Condition := none
  deriving DecidableEq

/-- Steps in the order in which they are declared. -/
structure Stage where
  name : String
  description : Option String := none
  steps : List Step
  deriving DecidableEq

namespace Stage

/-- The number of steps. -/
abbrev size (s : Stage) : Nat := s.steps.length

/-- The step at a place. -/
def step (s : Stage) (i : Fin s.size) : Step := s.steps.get i

/-- The names of the steps. -/
def names (s : Stage) : List String := s.steps.map Step.name

/-- The place of the first step with a name. -/
def indexOf? (s : Stage) (name : String) : Option (Fin s.size) :=
  s.steps.findFinIdx? (·.name = name)

/-- The places of the steps that a step requires, each once, in the order of first mention. Names of
no step are left out. -/
def requirements (s : Stage) (i : Fin s.size) : List (Fin s.size) :=
  ((s.step i).requires.filterMap s.indexOf?).eraseDups

end Stage
end StageFlow
