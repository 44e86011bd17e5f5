import StageFlow.Executor.Basic
import StageFlow.StageRun.Session

/-!
# Scripted executors

An executor that plays back a script, in a time of its own. Once launched, a step writes all its lines,
runs for a while and reports its outcome and how long it was meant to run. When steps are terminated,
the running ones report so at once.
-/

namespace StageFlow

/-- What a scripted step does; a step without latency runs until it is terminated. -/
structure Part where
  outcome : Outcome := .success
  output : List Line := []
  latency : Option Nat := some 5

/-- How far a scripted executor cooperates. -/
inductive Manner where
  | willing
  /-- Takes on steps and never reports. -/
  | gone
  /-- Takes on no step. -/
  | refuses
  deriving DecidableEq

/-- What is fixed about a scripted executor. -/
structure Script where
  parts : Table Part := Table.empty
  manner : Manner := .willing
  /-- When the run is cancelled, in milliseconds after its start. -/
  cancelAt : Option Nat := none
  /-- At how many running steps the run is cancelled. -/
  cancelWhenRunning : Option Nat := none

/-- A start or an end of a step. -/
inductive StageRecord where
  | started (step : String)
  | finished (step : String)
  deriving DecidableEq

/-- The step of a record that is a start. -/
def StageRecord.started? : StageRecord → Option String
  | .started s => some s
  | .finished _ => none

/-- A step that runs. -/
structure Running where
  step : String
  part : Part
  /-- When it ends by itself. -/
  due : Option Nat
  /-- Its lines have been written. -/
  spoken : Bool := false

/-- A scripted executor at work. -/
structure Scripted where
  script : Script
  now : Nat := 0
  running : List Running := []
  records : List StageRecord := []
  maxRunning : Nat := 0
  /-- A cancellation has been asked for by the script. -/
  cancelAsked : Bool := false
  terminated : Bool := false

namespace Scripted

/-- How long a step was meant to run. -/
def Part.duration (p : Part) : Duration := .ofMillis (p.latency.getD 0)

/-- Takes on a step. -/
def begin {n : Nat} (s : Scripted) (l : Launch n) : Scripted :=
  let part := (s.script.parts.get? l.name).getD {}
  let running := s.running ++ [⟨l.name, part, part.latency.map (s.now + ·), false⟩]
  { s with
    running, records := s.records ++ [.started l.name]
    maxRunning := max s.maxRunning running.length }

/-- Takes on steps, as far as the executor cooperates. -/
def launch {n : Nat} (ls : List (Launch n)) (s : Scripted) :
    Except ExecutionFault (Scripted × List LogEntry) :=
  match s.script.manner with
  | .willing => .ok (ls.foldl begin s, [])
  | .gone => .ok (s, [])
  | .refuses => .error .refused

/-- The cancellation is due. -/
def mustCancel (s : Scripted) : Bool :=
  !s.cancelAsked && (s.script.cancelAt.any (· ≤ s.now) ||
    s.script.cancelWhenRunning.any (· ≤ s.running.length))

/-- Ends a step and reports so. -/
def conclude (s : Scripted) (r : Running) (outcome : Outcome) : Happening × Scripted :=
  ({ signals := [.completed r.step outcome (Part.duration r.part)] },
    { s with
      running := s.running.filter (·.step ≠ r.step)
      records := s.records ++ [.finished r.step] })

/-- The next moment at which something is due. -/
def nextMoment? (s : Scripted) : Option Nat :=
  let cancel := if s.cancelAsked then none else s.script.cancelAt
  (s.running.filterMap (·.due) ++ cancel.toList).min?

/-- Goes on to the next thing that happens: lines come first, then cancellations, then ends. -/
def advance (s : Scripted) : Option (Happening × Scripted) :=
  match s.running.find? fun r => !r.spoken with
  | some r => some
      ({ signals := r.part.output.map (.output r.step) },
        { s with running := s.running.map fun q => if q.step = r.step then { q with spoken := true } else q })
  | none =>
    if s.mustCancel then some ({ cancels := true }, { s with cancelAsked := true })
    else
      match s.terminated, s.running with
      | true, r :: _ => some (s.conclude r .terminated)
      | _, _ =>
        match s.running.find? fun r => r.due.any (· ≤ s.now) with
        | some r => some (s.conclude r r.part.outcome)
        | none => (s.nextMoment?).map fun t => ({}, { s with now := max s.now t })

/-- The operations of scripted executors. -/
def operations (n : Nat) : Executor n Scripted where
  launch := launch
  terminate s := .ok ({ s with terminated := true }, [])
  cancel s := s
  advance := advance
  closed s := s.script.manner = .gone
  clock s := s.now

/-- The records of starts only, or of starts and ends. -/
def recordsOf (s : Scripted) (startsOnly : Bool) : List StageRecord :=
  if startsOnly then s.records.filter (·.started?.isSome) else s.records

/-- The place of the start of a step among the records. -/
def startedAt? (s : Scripted) (step : String) : Option Nat := s.records.idxOf? (.started step)

end Scripted

/-- Rehearses a run: carries it through with a script. -/
def Script.rehearse (script : Script) (g : StageGraph) (setting : Setting) (maxParallel bound : Nat) :
    Session g Scripted × Conclusion :=
  let s : Session g Scripted := .new g setting maxParallel { script }
  Session.run { executor := Scripted.operations g.size } bound
    { s with asked := script.cancelAt = some 0 }

end StageFlow
