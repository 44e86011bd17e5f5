/-!
# Patterns

Patterns of a shell: a star stands for any text, a question mark for any character, and brackets for one
character of a class. A character of a pattern may be quoted, and then stands for itself.
-/

namespace StageFlow.Shell

/-- A character with the note whether it is quoted. -/
abbrev Mark := Char × Bool

namespace Pattern

/-- One piece of a pattern. -/
inductive Piece where
  | any
  | one
  | char (c : Char)
  | choice (negated : Bool) (ranges : List (Char × Char))

/-- The members of a class up to its bracket, and what follows. -/
def members : Nat → List Mark → List (Char × Char) → Option (List (Char × Char) × List Mark)
  | 0, _, _ | _, [], _ => none
  | fuel + 1, (c, quoted) :: ms, found =>
    if c = ']' && !quoted && !found.isEmpty then some (found, ms)
    else match ms with
      | ('-', false) :: (d, q) :: rest =>
        if d = ']' && !q then members fuel ms (found ++ [(c, c)])
        else members fuel rest (found ++ [(c, d)])
      | ms => members fuel ms (found ++ [(c, c)])

/-- The pieces of a pattern. -/
def pieces : Nat → List Mark → List Piece
  | 0, _ | _, [] => []
  | fuel + 1, (c, true) :: ms => .char c :: pieces fuel ms
  | fuel + 1, ('*', false) :: ms => .any :: pieces fuel ms
  | fuel + 1, ('?', false) :: ms => .one :: pieces fuel ms
  | fuel + 1, ('[', false) :: ms =>
    let (negated, inner) := match ms with
      | ('!', false) :: inner => (true, inner)
      | inner => (false, inner)
    match members (inner.length + 1) inner [] with
    | some (ranges, rest) => .choice negated ranges :: pieces fuel rest
    | none => .char '[' :: pieces fuel ms
  | fuel + 1, (c, false) :: ms => .char c :: pieces fuel ms

/-- The pieces of all of a pattern. -/
def ofMarks (ms : List Mark) : List Piece := pieces (ms.length + 1) ms

/-- Whether pieces stand for a text. -/
def fits : List Piece → List Char → Bool
  | [], cs => cs.isEmpty
  | .any :: ps, cs => (List.range (cs.length + 1)).any fun n => fits ps (cs.drop n)
  | .one :: ps, _ :: cs => fits ps cs
  | .char p :: ps, c :: cs => p = c && fits ps cs
  | .choice negated ranges :: ps, c :: cs =>
    (ranges.any fun r => r.1 ≤ c && c ≤ r.2) != negated && fits ps cs
  | _ :: _, [] => false

/-- A pattern that may stand for more than one text. -/
def isOpen (ms : List Mark) : Bool := ms.any fun m => !m.2 && m.1 ∈ ['*', '?', '[']

/-- Cuts the longest or shortest beginning that fits off a text. -/
def cutFront (ps : List Piece) (longest : Bool) (cs : List Char) : List Char :=
  let sizes := List.range (cs.length + 1)
  let sizes := if longest then sizes.reverse else sizes
  match sizes.find? fun n => fits ps (cs.take n) with
  | some n => cs.drop n
  | none => cs

/-- Cuts the longest or shortest end that fits off a text. -/
def cutBack (ps : List Piece) (longest : Bool) (cs : List Char) : List Char :=
  let starts := List.range (cs.length + 1)
  let starts := if longest then starts else starts.reverse
  match starts.find? fun n => fits ps (cs.drop n) with
  | some n => cs.take n
  | none => cs

end Pattern
end StageFlow.Shell
