import StageFlow.Scheduler.Resolve

/-!
# States of steps

The state of each step of a stage in a run, by place, and the two ways in which steps move on without
news from the executor.

* `sweep` goes through the steps once and decides about every waiting step whose requirements allow
  it; `promote` repeats that until nothing changes.
* `launchReady` launches ready steps in declaration order while there are free slots.
-/

namespace StageFlow

/-- The state of a step in a run. -/
inductive RunState (n : Nat) where
  /-- Waiting for requirements. -/
  | pending
  /-- Resolved and waiting for a free slot. -/
  | ready (l : Launch n)
  /-- Handed to the executor. -/
  | running
  /-- Over; this never changes again. -/
  | done (e : Ending)

namespace RunState

variable {n : Nat}

/-- The step is over. -/
def isDone : RunState n → Bool
  | .done _ => true
  | _ => false

/-- The step waits for requirements. -/
def isPending : RunState n → Bool
  | .pending => true
  | _ => false

/-- The step waits for a slot. -/
def isReady : RunState n → Bool
  | .ready _ => true
  | _ => false

/-- The step runs. -/
def isRunning : RunState n → Bool
  | .running => true
  | _ => false

/-- The step has not been launched and is not over. -/
def isWaiting : RunState n → Bool
  | .pending | .ready _ => true
  | _ => false

/-- The status that reports show. -/
def status : RunState n → Status
  | .pending | .ready _ => .pending
  | .running => .running
  | .done e => e.status

/-- The reason of a step that is over because it was skipped. -/
def skip? : RunState n → Option SkipReason
  | .done e => e.skip?
  | _ => none

end RunState

/-- A step that came to its end, with a message for the reader. -/
structure Finished (n : Nat) where
  index : Fin n
  name : String
  ending : Ending
  message : String
  deriving DecidableEq

/-- What was decided about a step that waited for requirements. -/
inductive Decision (n : Nat) where
  /-- A requirement did not succeed. -/
  | blocked (f : Finished n)
  /-- The step can run. -/
  | ready (l : Launch n)
  /-- The step does not apply. -/
  | inapplicable (f : Finished n)
  /-- The step failed before launch. -/
  | invalid (f : Finished n)

namespace Decision

variable {n : Nat}

/-- The new state of the step. -/
def state : Decision n → RunState n
  | .ready l => .ready l
  | .blocked f | .inapplicable f | .invalid f => .done f.ending

/-- The end of the step, if it came to its end. -/
def finished? : Decision n → Option (Finished n)
  | .ready _ => none
  | .blocked f | .inapplicable f | .invalid f => some f

/-- The place of the step. -/
def index : Decision n → Fin n
  | .ready l => l.index
  | .blocked f | .inapplicable f | .invalid f => f.index

end Decision

/-- Where a step stands with its requirements. -/
inductive Standing where
  | waiting
  | satisfied
  | blocked (r : SkipReason)
  deriving DecidableEq

/-- The states of all steps of a stage. -/
abbrev States (n : Nat) := Row (RunState n) n

namespace States

variable {n : Nat}

/-- A step skipped for a reason. -/
def skipped (name : Fin n → String) (i : Fin n) (r : SkipReason) : Finished n :=
  ⟨i, name i, .skipped r, "skipped: " ++ r.text⟩

/-- Why a requirement blocks the steps that require it. -/
def blocks? (name : Fin n → String) (s : States n) (d : Fin n) : Option SkipReason :=
  match s.get d with
  | .done e => e.blocks? (name d)
  | _ => none

/-- Where a step with the given requirements stands. The first blocking requirement counts, even
while others are not over. -/
def standing (name : Fin n → String) (s : States n) (deps : List (Fin n)) : Standing :=
  match deps.findSome? (s.blocks? name) with
  | some r => .blocked r
  | none => if deps.all fun d => (s.get d).isDone then .satisfied else .waiting

/-- What an eligible step does. -/
def settle (name : Fin n → String) (resolve : Fin n → Verdict n) (onError : Fin n → OnError)
    (i : Fin n) : Decision n :=
  match resolve i with
  | .run l => .ready l
  | .skip r => .inapplicable (skipped name i r)
  | .fail u => .invalid ⟨i, name i, .failed (onError i), u.message⟩

/-- What is decided about a step now, if anything. -/
def decide? (g : StageGraph) (setting : Setting) (s : States g.size) (i : Fin g.size) :
    Option (Decision g.size) :=
  match s.get i with
  | .pending =>
    match s.standing g.name (g.deps.get i) with
    | .waiting => none
    | .blocked r => some (.blocked (skipped g.name i r))
    | .satisfied =>
      some (settle g.name (fun i => setting.resolve g.stage.name i (g.step i))
        (fun i => (g.step i).onError) i)
  | _ => none

/-- Decides about the steps at the given places one after the other. -/
def sweep (g : StageGraph) (setting : Setting) :
    List (Fin g.size) → States g.size → List (Decision g.size) × States g.size
  | [], s => ([], s)
  | i :: is, s =>
    match s.decide? g setting i with
    | none => sweep g setting is s
    | some d =>
      let (ds, s) := sweep g setting is (s.put i d.state)
      (d :: ds, s)

/-- Sweeps until nothing changes. Every sweep but the last leaves fewer steps pending, so `bound`
sweeps suffice if fewer steps are pending. -/
def promoteWithin (g : StageGraph) (setting : Setting) :
    Nat → States g.size → List (Decision g.size) × States g.size
  | 0, s => ([], s)
  | bound + 1, s =>
    match sweep g setting (List.finRange g.size) s with
    | ([], s) => ([], s)
    | (d :: ds, s) =>
      let (more, s) := promoteWithin g setting bound s
      (d :: ds ++ more, s)

/-- Decides about every pending step that can be decided about. -/
def promote (g : StageGraph) (setting : Setting) (s : States g.size) :
    List (Decision g.size) × States g.size :=
  promoteWithin g setting (g.size + 1) s

/-- Launches ready steps at the given places, at most as many as there are free slots. -/
def launchReady : List (Fin n) → Nat → States n → List (Launch n) × States n
  | [], _, s => ([], s)
  | _ :: _, 0, s => ([], s)
  | i :: is, free + 1, s =>
    match s.get i with
    | .ready l =>
      let (ls, s) := launchReady is free (s.put i .running)
      (l :: ls, s)
    | _ => launchReady is (free + 1) s

/-- The places of the steps that have not been launched. -/
def waiting (s : States n) : List (Fin n) := (List.finRange n).filter fun i => (s.get i).isWaiting

/-- Ends every step that has not been launched. -/
def cancelWaiting (name : Fin n → String) (s : States n) : List (Finished n) × States n :=
  (s.waiting.map fun i => ⟨i, name i, .skipped .cancelled, "skipped: run cancelled"⟩,
    s.map fun st => if st.isWaiting then .done (.skipped .cancelled) else st)

/-- The number of running steps. -/
def runningCount (s : States n) : Nat := s.countP RunState.isRunning

/-- Every step is over. -/
def allDone (s : States n) : Bool := s.all RunState.isDone

end States
end StageFlow
