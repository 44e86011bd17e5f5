import StageFlow.Expr.Token

/-!
# Expressions

The tree of an expression, what can go wrong with an expression, and `Expr.render`, which writes the
tree with every application in parentheses and the operator first.
-/

namespace StageFlow

/-- The comparison operators. -/
inductive Comparison where
  | eq | ne | lt | le | gt | ge
  deriving DecidableEq

namespace Comparison

/-- Whether two values with the given order stand in the relation. -/
def holds : Comparison → Ordering → Bool
  | .eq, o => o == .eq
  | .ne, o => o != .eq
  | .lt, o => o == .lt
  | .le, o => o != .gt
  | .gt, o => o == .gt
  | .ge, o => o != .lt

/-- The sign of the operator. -/
def sign : Comparison → String
  | .eq => "=="
  | .ne => "!="
  | .lt => "<"
  | .le => "<="
  | .gt => ">"
  | .ge => ">="

/-- The operator that a token stands for. -/
def ofToken? : Token → Option Comparison
  | .eq => some .eq
  | .ne => some .ne
  | .lt => some .lt
  | .le => some .le
  | .gt => some .gt
  | .ge => some .ge
  | _ => none

end Comparison

/-- An expression. -/
inductive Expr where
  | lit (v : Value)
  | var (name : String)
  | not (e : Expr)
  | and (left right : Expr)
  | or (left right : Expr)
  | compare (op : Comparison) (left right : Expr)
  | call (name : String) (args : List Expr)

/-- What can be wrong with an expression or a template. -/
inductive ExprError where
  | malformed (m : Malformed)
  | unknownFunction (name : String)
  | arity (function : String) (expected got : Nat)
  | invalidArgument (function message : String)
  | undefinedVariable (name : String)
  deriving DecidableEq

/-- The wording of an error. -/
def ExprError.message : ExprError → String
  | .malformed m =>
    "syntax error at offset " ++ m.offset.repr ++ ": " ++ m.fault.message
  | .unknownFunction name => "unknown function '" ++ name ++ "'"
  | .arity function expected got =>
    "function '" ++ function ++ "' expects " ++ expected.repr ++ " argument(s), got " ++ got.repr
  | .invalidArgument function message =>
    "invalid argument to '" ++ function ++ "': " ++ message
  | .undefinedVariable name => "undefined variable '" ++ name ++ "'"

namespace Expr

/-- A hexadecimal digit in lower case. -/
def hexDigit (n : Nat) : Char := if n < 10 then Char.ofNat (48 + n) else Char.ofNat (87 + n)

/-- How a character is written inside a rendered string literal. -/
def escaped (c : Char) : List Char :=
  if c = '"' then ['\\', '"']
  else if c = '\\' then ['\\', '\\']
  else if c = '\n' then ['\\', 'n']
  else if c = '\r' then ['\\', 'r']
  else if c = '\t' then ['\\', 't']
  else if c.toNat = 8 then ['\\', 'b']
  else if c.toNat = 12 then ['\\', 'f']
  else if c.toNat < 0x20 then
    ['\\', 'u', '0', '0', hexDigit (c.toNat / 16), hexDigit (c.toNat % 16)]
  else [c]

/-- A string literal between double quotes. -/
def renderString (s : String) : String :=
  String.ofList ('"' :: s.toList.flatMap escaped ++ ['"'])

/-- A literal value. -/
def renderValue : Value → String
  | .str s => renderString s
  | v => v.text

mutual

/-- The tree with the operator first and every application in parentheses. -/
def render : Expr → String
  | .lit v => renderValue v
  | .var name => "(var " ++ name ++ ")"
  | .not e => "(not " ++ e.render ++ ")"
  | .and l r => "(and " ++ l.render ++ " " ++ r.render ++ ")"
  | .or l r => "(or " ++ l.render ++ " " ++ r.render ++ ")"
  | .compare op l r => "(" ++ op.sign ++ " " ++ l.render ++ " " ++ r.render ++ ")"
  | .call name args => "(call " ++ name ++ renderArgs args ++ ")"

/-- The arguments of a call, each after a space. -/
def renderArgs : List Expr → String
  | [] => ""
  | e :: es => " " ++ e.render ++ renderArgs es

end

mutual

/-- The height of the tree: literals and variables have none. -/
def height : Expr → Nat
  | .lit _ | .var _ => 0
  | .not e => e.height + 1
  | .and l r | .or l r | .compare _ l r => max l.height r.height + 1
  | .call _ args => heightArgs args + 1

/-- The height of the highest argument. -/
def heightArgs : List Expr → Nat
  | [] => 0
  | e :: es => max e.height (heightArgs es)

end

end Expr
end StageFlow
