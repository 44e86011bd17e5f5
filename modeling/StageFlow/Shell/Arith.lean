import StageFlow.Number.Power
import StageFlow.Shell.Token
import StageFlow.Text.Blank

/-!
# Arithmetic of scripts

Expressions over whole numbers of 64 bits and variables, which count as zero if they are empty. All
values wrap around; a comparison is one if it holds, else zero.
-/

namespace StageFlow.Shell

/-- An arithmetic expression. -/
inductive Arith where
  | number (n : Int)
  | variable (name : String)
  | negate (e : Arith)
  | complement (e : Arith)
  | isZero (e : Arith)
  | binary (op : String) (a b : Arith)
  | choose (condition yes no : Arith)
  | assign (name : String) (e : Arith)

/-- What is wrong with an arithmetic expression. -/
inductive ArithFault where
  | noPrimary
  | noEnd
  | noBracket
  | noColon
  | byZero
  | illegalNumber (text : String)
  deriving DecidableEq

/-- The wording of a fault in an expression. -/
def ArithFault.message (source : List Char) : ArithFault → String
  | .noPrimary => about "expecting primary"
  | .noEnd => about "expecting EOF"
  | .noBracket => about "expecting ')'"
  | .noColon => about "expecting ':'"
  | .byZero => about "division by zero"
  | .illegalNumber text => "Illegal number: " ++ text
where
  about (what : String) : String :=
    "arithmetic expression: " ++ what ++ ": \"" ++ String.ofList source ++ "\""

namespace Arith

/-- The binary operators with how strongly they bind, longer ones before their beginnings. -/
def operators : List (String × Nat) :=
  [("||", 1), ("&&", 2), ("<<", 8), (">>", 8), ("<=", 7), (">=", 7), ("==", 6), ("!=", 6), ("|", 3),
    ("^", 4), ("&", 5), ("<", 7), (">", 7), ("+", 9), ("-", 9), ("*", 10), ("/", 10), ("%", 10)]

/-- The operators that change a variable, with what they do. -/
def changes : List (String × String) :=
  [("<<=", "<<"), (">>=", ">>"), ("+=", "+"), ("-=", "-"), ("*=", "*"), ("/=", "/"), ("%=", "%"),
    ("&=", "&"), ("|=", "|"), ("^=", "^")]

/-- Passes over white space. -/
def skip (cs : List Char) : List Char := cs.dropWhile fun c => c = ' ' || c = '\t' || c = '\n'

/-- The value of a digit, for bases up to 16. -/
def digit? (base : Nat) (c : Char) : Option Nat :=
  let v := if c.isDigit then c.toNat - '0'.toNat
    else if 'a' ≤ c.toLower && c.toLower ≤ 'f' then c.toLower.toNat - 'a'.toNat + 10 else 16
  if v < base then some v else none

/-- The number that all of a text is, in the given base. -/
def natOf? (base : Nat) (cs : List Char) : Option Nat :=
  if cs.isEmpty then none
  else cs.foldlM (fun n c => (digit? base c).map (n * base + ·)) 0

/-- The number that a text without sign denotes: hexadecimal, octal or decimal. -/
def unsigned? : List Char → Option Nat
  | '0' :: 'x' :: cs | '0' :: 'X' :: cs => natOf? 16 cs
  | '0' :: c :: cs => natOf? 8 (c :: cs)
  | cs => natOf? 10 cs

/-- The number that the text of a variable denotes; blanks around it do not count. -/
def ofText? (text : String) : Option Int :=
  match Text.trim text.toList with
  | [] => some 0
  | '-' :: cs => (unsigned? cs).map fun n => -(n : Int)
  | '+' :: cs => (unsigned? cs).map Int.ofNat
  | cs => (unsigned? cs).map Int.ofNat

/-- A read expression and what follows it. -/
abbrev Read := Except ArithFault (Arith × List Char)

mutual

/-- Reads an expression. -/
def expr : Nat → List Char → Read
  | 0, _ => .error .noPrimary
  | fuel + 1, cs => do
    let cs := skip cs
    let name := cs.takeWhile isNameChar
    let rest := skip (cs.drop name.length)
    if isName name then
      match changes.findSome? fun c => (Token.behind? c.1 rest).map (c.2, ·) with
      | some (op, rest) => do
        let (e, rest) ← expr fuel rest
        return (.assign (String.ofList name) (.binary op (.variable (String.ofList name)) e), rest)
      | none =>
        match rest with
        | '=' :: '=' :: _ => conditional fuel cs
        | '=' :: rest => do
          let (e, rest) ← expr fuel rest
          return (.assign (String.ofList name) e, rest)
        | _ => conditional fuel cs
    else conditional fuel cs

/-- Reads an expression that may be a choice between two others. -/
def conditional : Nat → List Char → Read
  | 0, _ => .error .noPrimary
  | fuel + 1, cs => do
    let (c, rest) ← level fuel 1 cs
    match skip rest with
    | '?' :: rest => do
      let (yes, rest) ← expr fuel rest
      match skip rest with
      | ':' :: rest => do
        let (no, rest) ← conditional fuel rest
        return (.choose c yes no, rest)
      | _ => .error .noColon
    | _ => return (c, rest)

/-- Reads operands joined by operators that bind at least as strongly as given. -/
def level : Nat → Nat → List Char → Read
  | 0, _, _ => .error .noPrimary
  | fuel + 1, least, cs => do
    let (a, rest) ← primary fuel cs
    joined fuel least a rest

/-- Goes on with what is joined to an operand. -/
def joined : Nat → Nat → Arith → List Char → Read
  | 0, _, _, _ => .error .noPrimary
  | fuel + 1, least, a, cs =>
    match operators.findSome? fun o => (Token.behind? o.1 (skip cs)).map (o, ·) with
    | some ((op, strength), rest) =>
      if strength < least then .ok (a, cs)
      else do
        let (b, rest) ← level fuel (strength + 1) rest
        joined fuel least (.binary op a b) rest
    | none => .ok (a, cs)

/-- Reads an operand. -/
def primary : Nat → List Char → Read
  | 0, _ => .error .noPrimary
  | fuel + 1, cs =>
    match skip cs with
    | '(' :: cs => do
      let (e, rest) ← expr fuel cs
      match skip rest with
      | ')' :: rest => return (e, rest)
      | _ => .error .noBracket
    | '-' :: cs => do let (e, rest) ← primary fuel cs; return (.negate e, rest)
    | '+' :: cs => primary fuel cs
    | '!' :: cs => do let (e, rest) ← primary fuel cs; return (.isZero e, rest)
    | '~' :: cs => do let (e, rest) ← primary fuel cs; return (.complement e, rest)
    | cs =>
      let text := cs.takeWhile isNameChar
      let rest := cs.drop text.length
      if isName text then .ok (.variable (String.ofList text), rest)
      else match unsigned? text with
        | some n => .ok (.number n, rest)
        | none => .error .noPrimary

end

/-- The expression that a whole text is. -/
def ofSource (cs : List Char) : Except ArithFault Arith :=
  if (skip cs).isEmpty then .ok (.number 0)
  else do
    let (e, rest) ← expr (8 * (cs.length + 1)) cs
    if (skip rest).isEmpty then return e else .error .noEnd

/-- Wraps a value around. -/
def wrap (n : Int) : Int := Int.bmod n (twoTo 64)

/-- A truth value as a number. -/
def truth (b : Bool) : Int := if b then 1 else 0

/-- The bits of a value as a natural number. -/
def bits (n : Int) : Nat := (n % twoTo 64).toNat

/-- The value of an operator that needs both operands. -/
def apply (op : String) (a b : Int) : Except ArithFault Int :=
  match op with
  | "+" => .ok (wrap (a + b))
  | "-" => .ok (wrap (a - b))
  | "*" => .ok (wrap (a * b))
  | "/" => if b = 0 then .error .byZero else .ok (wrap (a.tdiv b))
  | "%" => if b = 0 then .error .byZero else .ok (wrap (a.tmod b))
  | "<<" => .ok (wrap (a * twoTo (bits b % 64)))
  | ">>" => .ok (a / twoTo (bits b % 64))
  | "<" => .ok (truth (a < b))
  | "<=" => .ok (truth (a ≤ b))
  | ">" => .ok (truth (a > b))
  | ">=" => .ok (truth (a ≥ b))
  | "==" => .ok (truth (a = b))
  | "!=" => .ok (truth (a ≠ b))
  | "&" => .ok (wrap (bits a &&& bits b : Nat))
  | "|" => .ok (wrap (bits a ||| bits b : Nat))
  | _ => .ok (wrap (bits a ^^^ bits b : Nat))

/-- Evaluates an expression in variables, which it may change. -/
def eval (look : String → String) : Arith → List (String × Int) →
    Except ArithFault (Int × List (String × Int))
  | .number n, vs => .ok (wrap n, vs)
  | .variable name, vs =>
    match vs.find? (·.1 = name) with
    | some (_, n) => .ok (n, vs)
    | none =>
      match ofText? (look name) with
      | some n => .ok (wrap n, vs)
      | none => .error (.illegalNumber (look name))
  | .negate e, vs => do let (n, vs) ← eval look e vs; return (wrap (-n), vs)
  | .complement e, vs => do let (n, vs) ← eval look e vs; return (wrap (-n - 1), vs)
  | .isZero e, vs => do let (n, vs) ← eval look e vs; return (truth (n = 0), vs)
  | .binary "&&" a b, vs => do
    let (m, vs) ← eval look a vs
    if m = 0 then return (0, vs)
    let (n, vs) ← eval look b vs
    return (truth (n ≠ 0), vs)
  | .binary "||" a b, vs => do
    let (m, vs) ← eval look a vs
    if m ≠ 0 then return (1, vs)
    let (n, vs) ← eval look b vs
    return (truth (n ≠ 0), vs)
  | .binary op a b, vs => do
    let (m, vs) ← eval look a vs
    let (n, vs) ← eval look b vs
    return (← apply op m n, vs)
  | .choose c a b, vs => do
    let (n, vs) ← eval look c vs
    if n ≠ 0 then eval look a vs else eval look b vs
  | .assign name e, vs => do
    let (n, vs) ← eval look e vs
    return (n, (name, n) :: vs)

end Arith
end StageFlow.Shell
