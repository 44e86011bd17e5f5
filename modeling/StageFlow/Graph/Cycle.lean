/-!
# Cycles

A depth-first search along the edges of a graph on the places below `n`, given by the list of
successors of each place. The search follows successors in order and keeps the path that leads to
where it is. `find?` returns the first cycle that it closes: the part of the path from the place
met again.
-/

namespace StageFlow.Cycle

variable {n : Nat}

/-- There is an edge from the first place to the second one. -/
def Edge (next : Fin n → List (Fin n)) (u v : Fin n) : Prop := v ∈ next u

/-- What a search has learned: a cycle, or the places that are finished with. -/
inductive Search (n : Nat) where
  | cycle (members : List (Fin n))
  | finished (places : List (Fin n))

/-- Goes on from place to place until a cycle is closed. -/
def forEach (visit : Fin n → List (Fin n) → Search n) : List (Fin n) → List (Fin n) → Search n
  | [], finished => .finished finished
  | v :: vs, finished =>
    match visit v finished with
    | .cycle members => .cycle members
    | .finished finished => forEach visit vs finished

/-- Visits a place. `path` leads to it, last place first, and `finished` holds the places that are
known to reach no cycle. The bound exceeds the number of places that are not on the path. -/
def visit (next : Fin n → List (Fin n)) :
    Nat → List (Fin n) → Fin n → List (Fin n) → Search n
  | 0, _, _, finished => .finished finished
  | bound + 1, path, u, finished =>
    if u ∈ finished then .finished finished
    else if u ∈ path then .cycle (u :: (path.takeWhile (· ≠ u)).reverse)
    else
      match forEach (visit next bound (u :: path)) (next u) finished with
      | .cycle members => .cycle members
      | .finished finished => .finished (u :: finished)

/-- The first cycle that a search from every place in turn closes. -/
def find? (next : Fin n → List (Fin n)) : Option (List (Fin n)) :=
  match forEach (visit next (n + 1) []) (List.finRange n) [] with
  | .cycle members => some members
  | .finished _ => none

end StageFlow.Cycle
