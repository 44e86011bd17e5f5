import StageFlow.Shell.Token

/-!
# Commands

The commands of a shell, and how they are read from the tokens of a script. A script is read line by
line, where a line goes on as long as a command is not complete; what stands on complete lines can be run
even if a later line has a fault.
-/

namespace StageFlow.Shell

/-- A redirection. -/
structure Redirect where
  channel : Nat
  kind : RedirectKind
  /-- Whereto; for text given in place, that text. -/
  word : Word

/-- A command. -/
inductive Command where
  /-- Assignments, then a command with its arguments. -/
  | simple (line : Nat) (assigned : List (String × Word)) (words : List Word)
      (redirects : List Redirect)
  | pipeline (negated : Bool) (stages : List Command)
  | both (first second : Command)
  | either (first second : Command)
  | chain (cs : List Command)
  | background (c : Command)
  | subshell (body : Command)
  | redirected (line : Nat) (body : Command) (redirects : List Redirect)
  | branch (condition yes : Command) (no : Option Command)
  | loop (untilTrue : Bool) (condition body : Command)
  | each (name : String) (words : Option (List Word)) (body : Command)
  | choice (word : Word) (arms : List (List Word × Command))
  | define (name : String) (body : Command)

/-- A fault with the line it was found on. -/
abbrev LocatedFault := Nat × Fault

/-- Reading commands from tokens. -/
abbrev Parse := StateT (List Located) (Except LocatedFault)

namespace Parse

/-- The next token and its line. -/
def peek : Parse Located := do return (← get).headD (1, .ending)

/-- Passes over the next token. -/
def advance : Parse Unit := modify (List.drop 1)

/-- The next token should not be there. -/
def unexpected {α : Type} (expected : Option String) : Parse α := do
  match ← peek with
  | (line, .bad f) => throw (line, f)
  | (line, t) => throw (line, .unexpected t.described expected)

/-- Passes over line ends. -/
def newlines : Parse Unit := modify (List.dropWhile fun t => t.2 matches .newline)

/-- Passes over an operator if it is next. -/
def op? (text : String) : Parse Bool := do
  match ← peek with
  | (_, .op o) => if o = text then do advance; return true else return false
  | _ => return false

/-- Passes over a keyword if it is next. -/
def keyword? (k : String) : Parse Bool := do
  if (← peek).2.keyword? = some k then do advance; return true else return false

/-- Passes over a keyword that has to be next. -/
def keyword (k : String) : Parse Unit := do
  if ← keyword? k then return else unexpected (some k)

/-- Passes over a closing bracket that has to be next. -/
def closeBracket : Parse Unit := do
  if ← op? ")" then return else unexpected (some ")")

/-- The keywords that end a list of commands. -/
def closers : List String := ["do", "done", "elif", "else", "esac", "fi", "then", "\x7d"]

/-- The next token ends a list of commands. -/
def atClose : Parse Bool := do
  match (← peek).2 with
  | .ending => return true
  | .op o => return o ∈ [")", ";;"]
  | t => return t.keyword?.any (· ∈ closers)

/-- Reads a word. -/
def word : Parse Word := do
  match ← peek with
  | (_, .word w) => do advance; return w
  | _ => unexpected none

/-- Reads words as long as there are any. -/
def words : Parse (List Word) := do
  let ws := (← get).takeWhile fun t => t.2 matches .word _
  modify (List.drop ws.length)
  return ws.filterMap fun
    | (_, .word w) => some w
    | _ => none

/-- Reads redirections as long as there are any. -/
def redirects : Nat → Parse (List Redirect)
  | 0 => return []
  | fuel + 1 => do
    match ← peek with
    | (_, .redirect channel kind) => do
      advance
      let w ← word
      return ⟨channel, kind, w⟩ :: (← redirects fuel)
    | (_, .here channel body) => do
      advance
      return ⟨channel, .here, body⟩ :: (← redirects fuel)
    | _ => return []

/-- The assignment that a word is. -/
def assignment? : Word → Option (String × Word)
  | .text cs false :: rest =>
    let name := cs.takeWhile isNameChar
    match cs.drop name.length with
    | '=' :: value => if isName name then some (String.ofList name, .text value false :: rest) else none
    | _ => none
  | _ => none

/-- Reads the words and redirections of a simple command. -/
def simpleParts : Nat → List (String × Word) → List Word → List Redirect →
    Parse (List (String × Word) × List Word × List Redirect)
  | 0, as, ws, rs => return (as, ws, rs)
  | fuel + 1, as, ws, rs => do
    match ← peek with
    | (_, .word w) => do
      advance
      match assignment? w with
      | some a =>
        if ws.isEmpty then simpleParts fuel (as ++ [a]) ws rs
        else simpleParts fuel as (ws ++ [w]) rs
      | none => simpleParts fuel as (ws ++ [w]) rs
    | (_, .redirect _ _) | (_, .here _ _) => do
      let more ← redirects 1
      simpleParts fuel as ws (rs ++ more)
    | _ => return (as, ws, rs)

/-- Reads the patterns of an arm, up to the bracket that closes them. -/
def patterns : Nat → Parse (List Word)
  | 0 => unexpected none
  | fuel + 1 => do
    let w ← word
    if ← op? "|" then return w :: (← patterns fuel)
    closeBracket
    return [w]

mutual

/-- Reads commands up to a token that closes them, or up to the end of the line unless `multi`. -/
def items (multi : Bool) : Nat → Parse (List Command)
  | 0 => unexpected none
  | fuel + 1 => do
    let c ← andOr fuel
    let aside ← op? "&"
    let separated ← if aside then pure true else op? ";"
    let c := if aside then .background c else c
    let ended := (← peek).2 matches .newline
    if ended && multi then newlines
    if (!separated && !(ended && multi)) || (ended && !multi) || (← atClose) then return [c]
    else return c :: (← items multi fuel)

/-- Reads a list of commands inside another command, which goes on with the given word; there is at
least one command. -/
def body (closer : String) : Nat → Parse Command
  | 0 => unexpected none
  | fuel + 1 => do
    newlines
    if (← peek).2 matches .ending then unexpected (some closer)
    match ← items true fuel with
    | [c] => return c
    | cs => return .chain cs

/-- Reads pipelines joined by signs for "and" and "or". -/
def andOr : Nat → Parse Command
  | 0 => unexpected none
  | fuel + 1 => do
    let c ← pipeline fuel
    joined fuel c

/-- Goes on with what is joined to a command. -/
def joined : Nat → Command → Parse Command
  | 0, _ => unexpected none
  | fuel + 1, c => do
    if ← op? "&&" then do
      newlines
      let d ← pipeline fuel
      joined fuel (.both c d)
    else if ← op? "||" then do
      newlines
      let d ← pipeline fuel
      joined fuel (.either c d)
    else return c

/-- Reads a pipeline. -/
def pipeline : Nat → Parse Command
  | 0 => unexpected none
  | fuel + 1 => do
    if ← keyword? "!" then
      match ← pipeline fuel with
      | .pipeline negated cs => return .pipeline (!negated) cs
      | c => return .pipeline true [c]
    match ← stages fuel with
    | [c] => return c
    | cs => return .pipeline false cs

/-- Reads the stages of a pipeline. -/
def stages : Nat → Parse (List Command)
  | 0 => unexpected none
  | fuel + 1 => do
    let c ← command fuel
    if ← op? "|" then do
      newlines
      return c :: (← stages fuel)
    else return [c]

/-- Reads a command. -/
def command : Nat → Parse Command
  | 0 => unexpected none
  | fuel + 1 => do
    let (line, t) ← peek
    match t, t.keyword? with
    | _, some k =>
      if k ∈ ["if", "while", "until", "for", "case", "\x7b"] then do
        advance
        let c ← compound k fuel
        trailing line c
      else unexpected none
    | .op "(", _ => do
      advance
      let c ← body ")" fuel
      closeBracket
      trailing line (.subshell c)
    | _, _ => do
      let (as, ws, rs) ← simpleParts (← get).length [] [] []
      if as.isEmpty && ws.isEmpty && rs.isEmpty then unexpected none
      match as, ws, rs with
      | [], [w], [] =>
        match w.plain?, (← peek).2 with
        | some name, .op "(" => do
          advance
          closeBracket
          newlines
          return .define name (← command fuel)
        | _, _ => return .simple line as ws rs
      | _, _, _ => return .simple line as ws rs
where
  trailing (line : Nat) (c : Command) : Parse Command := do
    let rs ← redirects (← get).length
    return if rs.isEmpty then c else .redirected line c rs

/-- Reads the rest of a command that begins with a keyword. -/
def compound (k : String) : Nat → Parse Command
  | 0 => unexpected none
  | fuel + 1 =>
    match k with
    | "if" => do
      let condition ← body "then" fuel
      keyword "then"
      let yes ← body "fi" fuel
      let no ← otherwise fuel
      return .branch condition yes no
    | "while" | "until" => do
      let condition ← body "do" fuel
      keyword "do"
      let b ← body "done" fuel
      keyword "done"
      return .loop (k = "until") condition b
    | "for" => do
      match ← peek with
      | (line, .word w) =>
        match w.plain?.filter fun n => isName n.toList with
        | none => throw (line, .badLoopVariable)
        | some name => do
          advance
          newlines
          let ws ← if ← keyword? "in" then some <$> words else pure none
          if !(← op? ";") && ws.isSome then
            match (← peek).2 with
            | .newline => pure ()
            | _ => unexpected none
          newlines
          keyword "do"
          let b ← body "done" fuel
          keyword "done"
          return .each name ws b
      | (line, _) => throw (line, .badLoopVariable)
    | "case" => do
      let w ← word
      newlines
      keyword "in"
      newlines
      return .choice w (← arms fuel)
    | _ => do
      let b ← body "\x7d" fuel
      keyword "\x7d"
      return b

/-- Reads what follows the first branch of a condition. -/
def otherwise : Nat → Parse (Option Command)
  | 0 => unexpected none
  | fuel + 1 => do
    if ← keyword? "elif" then do
      let condition ← body "then" fuel
      keyword "then"
      let yes ← body "fi" fuel
      let no ← otherwise fuel
      return some (.branch condition yes no)
    else if ← keyword? "else" then do
      let c ← body "fi" fuel
      keyword "fi"
      return some c
    else do
      keyword "fi"
      return none

/-- Reads the arms of a choice. -/
def arms : Nat → Parse (List (List Word × Command))
  | 0 => unexpected none
  | fuel + 1 => do
    newlines
    if ← keyword? "esac" then return []
    let _ ← op? "("
    if (← peek).2 matches .ending then unexpected (some ")")
    let ps ← patterns (← get).length
    newlines
    let b ← if ← atClose then pure (.chain []) else body "esac" fuel
    if ← op? ";;" then return (ps, b) :: (← arms fuel)
    newlines
    keyword "esac"
    return [(ps, b)]

end

/-- Reads the commands of one line. -/
def line (fuel : Nat) : Parse Command := do
  match ← items false fuel with
  | [c] => return c
  | cs => return .chain cs

/-- Reads a script: the commands of its complete lines, and the fault that follows them. -/
def lines (fuel : Nat) : Nat → List Located → List Command × Option LocatedFault
  | 0, _ => ([], none)
  | n + 1, ts =>
    let ts := ts.dropWhile fun t => t.2 matches .newline
    match ts with
    | [] | (_, .ending) :: _ => ([], none)
    | ts =>
      match (line fuel).run ts with
      | .error f => ([], some f)
      | .ok (c, rest) =>
        match rest with
        | [] | (_, .newline) :: _ | (_, .ending) :: _ =>
          let (cs, fault) := lines fuel n rest
          (c :: cs, fault)
        | (l, .bad f) :: _ => ([], some (l, f))
        | (l, t) :: _ => ([], some (l, .unexpected t.described none))

end Parse

/-- The commands of a script, and the fault that keeps the rest from being read. -/
def Command.ofText (cs : List Char) : List Command × Option LocatedFault :=
  let tokens := Token.ofText cs
  Parse.lines (12 * (tokens.length + 1)) (tokens.length + 1) tokens

end StageFlow.Shell
