import StageFlow.StageRun.Basic

/-!
# Executors

What a run needs from whoever executes its steps. An executor is a state with operations; time passes
only in `advance`, which goes on to the next moment at which something happens.
-/

namespace StageFlow

/-- What happens at a moment. -/
structure Happening where
  /-- Reports on steps, in order. -/
  signals : List Signal := []
  /-- Somebody asks for the run to be cancelled. -/
  cancels : Bool := false
  log : List LogEntry := []

/-- The operations of an executor of steps of a stage with `n` steps. -/
structure Executor (n : Nat) (σ : Type) where
  /-- Takes on steps, or refuses to. -/
  launch : List (Launch n) → σ → Except ExecutionFault (σ × List LogEntry)
  /-- Asks every running step to stop, or fails to. -/
  terminate : σ → Except ExecutionFault (σ × List LogEntry)
  /-- Notes that the run has been asked to stop. -/
  cancel : σ → σ
  /-- Lets time pass until something happens, if something ever will. -/
  advance : σ → Option (Happening × σ)
  /-- Nothing will be reported any more. -/
  closed : σ → Bool
  /-- The milliseconds that have passed. -/
  clock : σ → Nat

end StageFlow
