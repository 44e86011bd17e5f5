import StageFlow.Expr.Eval

/-!
# Templates

A template is text with expressions between double braces. `Template.pieces` cuts a template from left
to right at the nearest braces; what an expression evaluates to is inserted and not looked at again.
Opening braces that are never closed are text, as is everything after them.
-/

namespace StageFlow

/-- A piece of a template. -/
inductive Piece where
  | text (cs : List Char)
  | hole (expr : List Char)
  deriving DecidableEq

namespace Template

/-- The braces that open a hole. -/
def opening : List Char := ['\x7b', '\x7b']

/-- The braces that close a hole. -/
def closing : List Char := ['\x7d', '\x7d']

/-- The pieces of a template. -/
def pieces (cs : List Char) : List Piece :=
  match _hopen : Text.cutAround? opening cs with
  | none => [.text cs]
  | some (before, after) =>
    match _hclose : Text.cutAround? closing after with
    | none => [.text cs]
    | some (expr, rest) => .text before :: .hole expr :: pieces rest
termination_by cs.length
decreasing_by
  have h₁ := congrArg List.length (Text.cutAround?_eq_some _hopen)
  have h₂ := congrArg List.length (Text.cutAround?_eq_some _hclose)
  simp only [List.length_append, opening, closing, List.length_cons, List.length_nil] at h₁ h₂
  omega

/-- The text of pieces, with the values of the holes inserted. -/
def fill (ev : Evaluator) (c : Context) : List Piece → Except ExprError (List Char)
  | [] => .ok []
  | .text cs :: ps => do return cs ++ (← fill ev c ps)
  | .hole e :: ps => do
    let v ← ev.evaluate c (String.ofList e)
    return v.text.toList ++ (← fill ev c ps)

/-- Replaces every hole of a template by the string form of its value; the first hole that has none
is reported. -/
def interpolate (ev : Evaluator) (c : Context) (template : String) : Except ExprError String := do
  return String.ofList (← fill ev c (pieces template.toList))

end Template
end StageFlow
