import StageFlow.Expr.Parser
import StageFlow.Files.Path
import StageFlow.Version
import StageFlow.Context
import StageFlow.Text.Record

/-!
# Evaluation

An evaluator fixes what expressions can see apart from variables: which files there are, the directory
that relative paths start from, and whether a variable without a value is an error (*strict*) or the empty
string. It also brings the language of patterns, of which nothing is known here but that a pattern is
compiled before it is matched, and that this may fail. `&&` and `||` look at their right side only if the
left side does not decide.
-/

namespace StageFlow

/-- A language of patterns. -/
class Matcher where
  /-- The texts in which a pattern matches somewhere, or else what is wrong with the pattern. -/
  compile : String → Except String (String → Bool)

/-- What expressions can see apart from variables. -/
structure Evaluator where
  /-- Whether there is anything at a path. -/
  hasFile : String → Bool := fun _ => false
  [matcher : Matcher]
  baseDir : Option String := none
  strict : Bool := false

namespace Evaluator

/-- An evaluator that sees no files. Its patterns are rows of letters and digits, which match where they
occur. -/
def plain : Evaluator where
  matcher.compile pattern :=
    if pattern.toList.all Char.isAlphanum then .ok fun text => Text.occursIn pattern.toList text.toList
    else .error "not plain"

/-- An evaluator for a reader, without its files. -/
def shownText (ev : Evaluator) : String :=
  Text.record "Evaluator"
    [("base_dir", Text.optional (ev.baseDir.map Text.quoted)), ("strict", toString ev.strict)] true

/-- The two arguments of a function. -/
def two (name : String) : List Value → Except ExprError (String × String)
  | [a, b] => .ok (a.text, b.text)
  | args => .error (.arity name 2 args.length)

/-- The argument of a function. -/
def one (name : String) : List Value → Except ExprError String
  | [a] => .ok a.text
  | args => .error (.arity name 1 args.length)

/-- Whether a file exists, relative paths starting from the base directory. -/
def fileExists (ev : Evaluator) (path : String) : Bool :=
  ev.hasFile (match ev.baseDir with
    | some base => Path.joinText base path
    | none => path)

/-- The sign of an ordering as a number. -/
def orderingNumber : Ordering → Number
  | .lt => Number.ofInt (-1)
  | .eq => Number.ofInt 0
  | .gt => Number.ofInt 1

/-- Calls a function by name. -/
def call (ev : Evaluator) (name : String) (args : List Value) : Except ExprError Value :=
  match name with
  | "contains" => do
    let (hay, needle) ← two name args
    return .bool (Text.occursIn needle.toList hay.toList)
  | "startsWith" => do
    let (whole, front) ← two name args
    return .bool (front.toList.isPrefixOf whole.toList)
  | "endsWith" => do
    let (whole, back) ← two name args
    return .bool (back.toList.isSuffixOf whole.toList)
  | "matches" => do
    let (text, pattern) ← two name args
    match ev.matcher.compile pattern with
    | .ok holds => return .bool (holds text)
    | .error why => throw (.invalidArgument name ("bad regex: " ++ why))
  | "fileExists" => do
    let path ← one name args
    if path = "" then throw (.invalidArgument name "path is empty")
    return .bool (ev.fileExists path)
  | "semverCompare" => do
    let (a, b) ← two name args
    match Version.compareTexts a b with
    | .ok o => return .num (orderingNumber o)
    | .error e => throw (.invalidArgument name e.message)
  | _ => .error (.unknownFunction name)

mutual

/-- The value of an expression. -/
def eval (ev : Evaluator) (c : Context) : Expr → Except ExprError Value
  | .lit v => .ok v
  | .var name =>
    match c.get? name with
    | some v => .ok v
    | none => if ev.strict then .error (.undefinedVariable name) else .ok (.str "")
  | .not e => do return .bool !(← eval ev c e).isTruthy
  | .and l r => do
    let a ← eval ev c l
    if a.isTruthy then return .bool (← eval ev c r).isTruthy
    else return .bool false
  | .or l r => do
    let a ← eval ev c l
    if a.isTruthy then return .bool true
    else return .bool (← eval ev c r).isTruthy
  | .compare op l r => do
    let a ← eval ev c l
    let b ← eval ev c r
    return .bool (op.holds (a.compare b))
  | .call name args => do
    let vs ← evalAll ev c args
    ev.call name vs

/-- The values of expressions from left to right. -/
def evalAll (ev : Evaluator) (c : Context) : List Expr → Except ExprError (List Value)
  | [] => .ok []
  | e :: es => do
    let v ← eval ev c e
    let vs ← evalAll ev c es
    return v :: vs

end

/-- Reads and evaluates the text of an expression. -/
def evaluate (ev : Evaluator) (c : Context) (text : String) : Except ExprError Value :=
  match Expr.parse text with
  | .error m => .error (.malformed m)
  | .ok e => ev.eval c e

/-- Whether the text of an expression evaluates to something that counts as true. -/
def test (ev : Evaluator) (c : Context) (text : String) : Except ExprError Bool := do
  return (← ev.evaluate c text).isTruthy

end Evaluator
end StageFlow
