import StageFlow.Event
import StageFlow.Log

/-!
# The presenter

Steps run side by side, but are shown as if they had run one after the other in declaration order. The
presenter keeps a lane for every step that has not been shown to its end. The first lane is live: what
happens to its step is shown at once. The other lanes collect what happens until it is their turn. When
a step ends whose lane is live, its lane is closed, and so are the lanes after it whose steps have ended
meanwhile.
-/

namespace StageFlow

/-- What has happened to a step and not been shown. -/
structure Lane where
  step : String
  /-- The step has started. -/
  started : Bool := false
  /-- The start has been shown. -/
  startShown : Bool := false
  /-- Lines waiting for the step's turn. -/
  buffer : List Line := []
  /-- The end of the step. -/
  ending : Option Summary := none
  deriving DecidableEq

namespace Lane

/-- Notes an event until the lane is live. -/
def record (l : Lane) : StepEvent → Lane
  | .started _ => { l with started := true }
  | .output _ line => { l with buffer := l.buffer ++ [line] }
  | .finished _ summary => { l with ending := some summary }

/-- There is something to show. -/
def hasNews (l : Lane) : Bool := l.started || !l.buffer.isEmpty || l.ending.isSome

/-- The start, unless it has been shown. -/
def start (l : Lane) : List ProgressEvent := if l.startShown then [] else [.start l.step]

/-- What a live lane shows of what it has collected, short of the end. -/
def flush (l : Lane) : List ProgressEvent :=
  (if l.hasNews then l.start else []) ++ l.buffer.map (.output l.step)

/-- The lane after its collection has been shown. -/
def flushed (l : Lane) : Lane :=
  { l with startShown := l.startShown || l.hasNews, buffer := [] }

/-- Shows lanes from the first on: as long as their steps have ended they are closed. -/
def drain : List Lane → List ProgressEvent × List Lane
  | [] => ([], [])
  | l :: ls =>
    match l.ending with
    | none => (l.flush, l.flushed :: ls)
    | some summary =>
      let (shown, rest) := drain ls
      (l.flush ++ .finish l.step summary :: shown, rest)

/-- The last lane of a step. -/
def lastOf? (step : String) (ls : List Lane) : Option (Fin ls.length) :=
  ((List.finRange ls.length).filter fun i => ls[i].step = step).getLast?

end Lane

/-- The steps to show, and the lanes of those that have not been shown to their end. -/
structure Presenter where
  steps : List String
  lanes : List Lane

namespace Presenter

/-- Nothing has happened yet. -/
def new (steps : List String) : Presenter := ⟨steps, steps.map fun s => { step := s }⟩

/-- How many steps have been shown to their end. -/
def active (p : Presenter) : Nat := p.steps.length - p.lanes.length

/-- The step that is shown live. -/
def activeStep? (p : Presenter) : Option String := p.lanes.head?.map Lane.step

/-- Every step has been shown to its end. -/
def isComplete (p : Presenter) : Bool := p.lanes.isEmpty

/-- How many lines of a step wait for its turn. -/
def buffered (p : Presenter) (step : String) : Nat :=
  match Lane.lastOf? step p.lanes with
  | some i => p.lanes[i].buffer.length
  | none => 0

/-- What the live lane shows of an event right away. -/
def showLive (l : Lane) (ls : List Lane) : StepEvent → List ProgressEvent × List Lane
  | .started _ => (l.start, { l with startShown := true } :: ls)
  | .output _ line => (l.start ++ [.output l.step line], { l with startShown := true } :: ls)
  | .finished _ summary => Lane.drain ({ l with ending := some summary } :: ls)

/-- Takes an event and returns what is shown now. Events of unknown steps and of steps that have ended
are dropped. -/
def handle (p : Presenter) (e : StepEvent) : Presenter × List ProgressEvent :=
  match Lane.lastOf? e.step p.lanes with
  | none => (p, [])
  | some i =>
    if p.lanes[i].ending.isSome then (p, [])
    else
      match p.lanes, i with
      | l :: ls, ⟨0, _⟩ =>
        let (shown, lanes) := showLive l ls e
        ({ p with lanes }, shown)
      | lanes, i => ({ p with lanes := lanes.set i (lanes[i].record e) }, [])

/-- The end of the run: everything that is held back is shown, and steps that never reported their end
are shown as terminated. -/
def finish (p : Presenter) : Presenter × List ProgressEvent :=
  let closed := p.lanes.map fun l => { l with ending := l.ending.orElse fun _ => some .terminated }
  let (shown, lanes) := Lane.drain closed
  ({ p with lanes }, shown)

/-- The journal of an event. -/
def journal (p : Presenter) (e : StepEvent) : List LogEntry :=
  let entry (message : String) : List LogEntry := [⟨.warn, message, [("step", .shown e.step)]⟩]
  match Lane.lastOf? e.step p.lanes with
  | none =>
    if e.step ∈ p.steps then entry "event for step already shown as finished; dropping"
    else entry "event for unknown step; dropping"
  | some i =>
    if p.lanes[i].ending.isSome then entry "event after step finished; dropping" else []

/-- The journal of the end of the run. -/
def finishJournal (p : Presenter) : List LogEntry :=
  (p.lanes.filter fun l => l.ending.isNone).map fun l =>
    ⟨.debug, "no terminal status at end of run; marking terminated", [("step", .shown l.step)]⟩

end Presenter
end StageFlow
