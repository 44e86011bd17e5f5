import StageFlow.Shell.Arith
import StageFlow.Shell.Basic

/-!
# Conditions

The conditions that `test` and `[` check: about texts, numbers and files, negated, joined and put in
brackets.
-/

namespace StageFlow.Shell.Condition

/-- What is wrong with a condition. -/
inductive Fault where
  | missing
  | illegalNumber (text : String)
  | unexpected (text : String)
  | expected (text : String)

/-- The wording of a fault. -/
def Fault.message : Fault → String
  | .missing => "argument expected"
  | .illegalNumber text => "Illegal number: " ++ text
  | .unexpected text => text ++ ": unexpected operator"
  | .expected text => text ++ " expected"

/-- The operators that stand before one operand. -/
def unary : List String := ["-n", "-z", "-e", "-f", "-d", "-s", "-r", "-w", "-x", "-h", "-L", "-t"]

/-- The operators that stand between two operands. -/
def binary : List String :=
  ["=", "==", "!=", "<", ">", "-eq", "-ne", "-lt", "-le", "-gt", "-ge", "-nt", "-ot", "-ef"]

/-- The number that an operand denotes. -/
def number (text : String) : Except Fault Int :=
  match Arith.ofText? text with
  | some n => if text.isEmpty then .error (.illegalNumber text) else .ok n
  | none => .error (.illegalNumber text)

/-- Checks an operator with one operand. -/
def one (d : Disk) (cwd : Place) (op x : String) : Bool :=
  let item : Option DiskItem := (d.lookup cwd x).toOption.map (·.2)
  match op with
  | "-n" => x ≠ ""
  | "-z" => x = ""
  | "-f" => match item with
    | some (.file _) => true
    | _ => false
  | "-d" | "-x" => item = some .dir
  | "-s" => match item with
    | some (.file bytes) => !bytes.isEmpty
    | some .dir => true
    | _ => false
  | "-h" | "-L" | "-t" => false
  | _ => item.isSome

/-- Checks an operator with two operands. -/
def two (x op y : String) : Except Fault Bool :=
  let compare (f : Int → Int → Bool) : Except Fault Bool := do return f (← number x) (← number y)
  match op with
  | "=" | "==" => .ok (x = y)
  | "!=" => .ok (x ≠ y)
  | "<" => .ok (x < y)
  | ">" => .ok (y < x)
  | "-eq" => compare (· = ·)
  | "-ne" => compare (· ≠ ·)
  | "-lt" => compare (· < ·)
  | "-le" => compare (· ≤ ·)
  | "-gt" => compare (· > ·)
  | "-ge" => compare (· ≥ ·)
  | _ => .ok false

mutual

/-- Reads conditions of which one has to hold. -/
def either (d : Disk) (cwd : Place) : Nat → List String → Except Fault (Bool × List String)
  | 0, _ => .error .missing
  | fuel + 1, args => do
    let (a, rest) ← both d cwd fuel args
    match rest with
    | "-o" :: rest => do
      let (b, rest) ← either d cwd fuel rest
      return (a || b, rest)
    | rest => return (a, rest)

/-- Reads conditions that have to hold together. -/
def both (d : Disk) (cwd : Place) : Nat → List String → Except Fault (Bool × List String)
  | 0, _ => .error .missing
  | fuel + 1, args => do
    let (a, rest) ← negated d cwd fuel args
    match rest with
    | "-a" :: rest => do
      let (b, rest) ← both d cwd fuel rest
      return (a && b, rest)
    | rest => return (a, rest)

/-- Reads a condition that may be negated. -/
def negated (d : Disk) (cwd : Place) : Nat → List String → Except Fault (Bool × List String)
  | 0, _ => .error .missing
  | fuel + 1, args =>
    match args with
    | x :: op :: y :: rest =>
      if op ∈ binary then do return (← two x op y, rest) else negation d cwd fuel args
    | args => negation d cwd fuel args

/-- Reads a condition that is not between two operands. -/
def negation (d : Disk) (cwd : Place) : Nat → List String → Except Fault (Bool × List String)
  | 0, _ => .error .missing
  | fuel + 1, args =>
    match args with
    | [] => .error .missing
    | "!" :: x :: rest => do
      let (a, rest) ← negated d cwd fuel (x :: rest)
      return (!a, rest)
    | "(" :: x :: rest => do
      let (a, rest) ← either d cwd fuel (x :: rest)
      match rest with
      | ")" :: rest => return (a, rest)
      | _ => .error (.expected "closing paren")
    | [x] => .ok (x ≠ "", [])
    | x :: y :: rest =>
      if x ∈ unary then .ok (one d cwd x y, rest) else .ok (x ≠ "", y :: rest)

end

/-- Checks a condition. -/
def check (d : Disk) (cwd : Place) (args : List String) : Except Fault Bool :=
  if args.isEmpty then .ok false
  else do
    let (a, rest) ← either d cwd (4 * args.length + 4) args
    match rest with
    | [] => return a
    | _ => .error (.unexpected (args.headD ""))

/-- The command that checks a condition, by the given name. -/
def command (name : String) (args : List String) : Act Nat := do
  let inner := if name = "[" then args.dropLast else args
  if name = "[" && args.getLast? ≠ some "]" then
    complainHere "[: missing ]"
    return 2
  let d ← ask .look
  match check d (← get).cwd inner with
  | .ok b => return if b then 0 else 1
  | .error f => do
    complainHere (name ++ ": " ++ f.message)
    return 2

end StageFlow.Shell.Condition
