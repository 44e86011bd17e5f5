import StageFlow.Expr.Basic

/-!
# Reading expressions

The grammar, from the loosest to the tightest operator:

* a disjunction is conjunctions joined by `||`;
* a conjunction is negations joined by `&&`;
* a negation is `!` and a negation, or a comparison;
* a comparison is primaries joined by `==`, `!=`, `<`, `<=`, `>` or `>=`;
* a primary is a literal, a variable, a call, or a disjunction in parentheses.

All joins associate to the left. Nesting is limited by a *room*, which each of the following takes
one from: entering a disjunction (the whole text, parentheses, an argument), a `!`, and every
operator of a chain, for what stands to its right. So every reader recurses on its room, and
`Expr.maxDepth` bounds the height of what is read.
-/

namespace StageFlow.Expr

/-- The room that a whole expression has. -/
def maxDepth : Nat := 128

/-- A reader takes tokens from the front and returns what it read and the tokens that are left. -/
abbrev Reader := List Placed → Except Malformed (Expr × List Placed)

/-- The offset of the next token; `stop` is the end of the text. -/
def position (stop : Nat) : List Placed → Nat
  | [] => stop
  | t :: _ => t.offset

/-- The fault of running out of room in front of the given tokens. -/
def tooDeep {α : Type} (stop : Nat) (ts : List Placed) : Except Malformed α :=
  .error ⟨position stop ts, .tooDeep⟩

/-- Goes on with a chain of operators after its left part. -/
def chain (stop : Nat) (op? : Token → Option (Expr → Expr → Expr)) (operand : Nat → Reader) :
    Nat → Expr → Reader
  | _, left, [] => .ok (left, [])
  | 0, left, t :: ts =>
    match op? t.token with
    | none => .ok (left, t :: ts)
    | some _ => tooDeep stop ts
  | room + 1, left, t :: ts =>
    match op? t.token with
    | none => .ok (left, t :: ts)
    | some join => do
      let (right, rest) ← operand room ts
      chain stop op? operand room (join left right) rest

/-- The arguments of the call at offset `start`, up to the closing parenthesis. The bound only has to
exceed the number of tokens. -/
def arguments (start : Nat) (argument : Reader) :
    Nat → List Placed → Except Malformed (List Expr × List Placed)
  | 0, _ => .error ⟨start, .openCall⟩
  | bound + 1, ts => do
    let (e, rest) ← argument ts
    match rest with
    | ⟨_, .comma⟩ :: rest => do
      let (es, rest) ← arguments start argument bound rest
      return (e :: es, rest)
    | ⟨_, .rparen⟩ :: rest => return ([e], rest)
    | _ => .error ⟨start, .openCall⟩

/-- A primary; `inner` reads a nested disjunction. -/
def primary (stop : Nat) (inner : Reader) : Reader
  | [] => .error ⟨stop, .endOfText⟩
  | ⟨_, .num n⟩ :: rest => .ok (.lit (.num n), rest)
  | ⟨_, .str s⟩ :: rest => .ok (.lit (.str s), rest)
  | ⟨_, .true⟩ :: rest => .ok (.lit (.bool true), rest)
  | ⟨_, .false⟩ :: rest => .ok (.lit (.bool false), rest)
  | ⟨start, .ident name⟩ :: rest =>
    match rest with
    | ⟨_, .lparen⟩ :: ⟨_, .rparen⟩ :: rest => .ok (.call name [], rest)
    | ⟨_, .lparen⟩ :: rest => do
      let (args, rest) ← arguments start inner (rest.length + 1) rest
      return (.call name args, rest)
    | _ => .ok (.var name, rest)
  | ⟨start, .lparen⟩ :: rest => do
    let (e, rest) ← inner rest
    match rest with
    | ⟨_, .rparen⟩ :: rest => return (e, rest)
    | _ => .error ⟨start, .openParen⟩
  | ⟨start, token⟩ :: _ => .error ⟨start, .noValue token⟩

/-- The join of a comparison operator. -/
def comparisonJoin? (t : Token) : Option (Expr → Expr → Expr) :=
  (Comparison.ofToken? t).map .compare

/-- The join of `&&`. -/
def andJoin? : Token → Option (Expr → Expr → Expr)
  | .and => some .and
  | _ => none

/-- The join of `||`. -/
def orJoin? : Token → Option (Expr → Expr → Expr)
  | .or => some .or
  | _ => none

/-- A comparison; `inner` reads a nested disjunction in a given room. -/
def comparison (stop : Nat) (inner : Nat → Reader) (room : Nat) : Reader := fun ts => do
  let (left, rest) ← primary stop (inner room) ts
  chain stop comparisonJoin? (fun room => primary stop (inner room)) room left rest

/-- A negation. -/
def negation (stop : Nat) (inner : Nat → Reader) : Nat → Reader
  | 0, ⟨_, .not⟩ :: ts => tooDeep stop ts
  | room + 1, ⟨_, .not⟩ :: ts => do
    let (e, rest) ← negation stop inner room ts
    return (.not e, rest)
  | room, ts => comparison stop inner room ts

/-- A conjunction. -/
def conjunction (stop : Nat) (inner : Nat → Reader) (room : Nat) : Reader := fun ts => do
  let (left, rest) ← negation stop inner room ts
  chain stop andJoin? (negation stop inner) room left rest

/-- A disjunction. -/
def disjunction (stop : Nat) (inner : Nat → Reader) (room : Nat) : Reader := fun ts => do
  let (left, rest) ← conjunction stop inner room ts
  chain stop orJoin? (conjunction stop inner) room left rest

/-- A disjunction entered with the given room. The bound limits how often disjunctions are nested;
since nesting takes room, any bound from `room` on has the same effect. -/
def nested (stop : Nat) : (bound : Nat) → (room : Nat) → Reader
  | bound + 1, room + 1, ts => disjunction stop (nested stop bound) room ts
  | _, _, ts => tooDeep stop ts

/-- Reads all tokens of a text with `stop` bytes as one expression. -/
def ofTokens (stop : Nat) (ts : List Placed) : Except Malformed Expr :=
  if ts.isEmpty then .error ⟨0, .empty⟩
  else do
    let (e, rest) ← nested stop maxDepth maxDepth ts
    match rest with
    | [] => return e
    | ⟨offset, .rparen⟩ :: _ => .error ⟨offset, .strayClose⟩
    | ⟨offset, token⟩ :: _ => .error ⟨offset, .extra token⟩

/-- Reads the text of an expression. -/
def parse (text : String) : Except Malformed Expr := do
  ofTokens text.utf8ByteSize (← Token.scan text)

end StageFlow.Expr
