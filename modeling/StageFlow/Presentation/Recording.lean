import StageFlow.Event

/-!
# Recorded progress

What can be said about a list of progress events as a whole.
-/

namespace StageFlow.Recording

/-- The steps in the order in which their start was shown. -/
def startOrder (es : List ProgressEvent) : List String :=
  es.filterMap fun
    | .start s => some s
    | _ => none

/-- The steps in the order in which their end was shown. -/
def finishOrder (es : List ProgressEvent) : List String :=
  es.filterMap fun
    | .finish s _ => some s
    | _ => none

/-- The status with which a step was first shown to end. -/
def finalStatus? (es : List ProgressEvent) (step : String) : Option Status :=
  es.findSome? fun
    | .finish s summary => if s = step then some summary.status else none
    | _ => none

/-- The text of the lines shown for a step. -/
def linesFor (es : List ProgressEvent) (step : String) : List String :=
  es.filterMap fun
    | .output s line => if s = step then some line.text else none
    | _ => none

/-- Goes through events with the step being shown and the steps shown to their end. -/
def contiguousFrom : Option String → List String → List ProgressEvent → Bool
  | _, _, [] => true
  | current, closed, e :: es =>
    let (step, ends) := match e with
      | .start s | .output s _ => (s, false)
      | .finish s _ => (s, true)
    if closed.contains step || current.any (· ≠ step) then false
    else if ends then contiguousFrom none (step :: closed) es
    else contiguousFrom (some step) closed es

/-- The events of every step stand together, and none follows the end of its step. -/
def isContiguous (es : List ProgressEvent) : Bool := contiguousFrom none [] es

end StageFlow.Recording
