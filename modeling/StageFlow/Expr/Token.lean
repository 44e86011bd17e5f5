import StageFlow.Text.Blank
import StageFlow.Text.Cut
import StageFlow.Value

/-!
# Tokens of expressions

`scan` cuts the text of an expression into tokens. Each step looks at the first character that is not
blank, decides on a token and on how many further characters belong to it, and goes on with what is
left. Offsets count bytes of the UTF-8 form.
-/

namespace StageFlow

/-- The words and signs of the expression language. -/
inductive Token where
  | ident (name : String)
  | str (s : String)
  | num (n : Number)
  | true | false
  | and | or | not
  | eq | ne | lt | le | gt | ge
  | lparen | rparen | comma
  deriving DecidableEq

/-- How error messages call a token. -/
def Token.describe : Token → String
  | .ident name => "identifier '" ++ name ++ "'"
  | .str s => "string '" ++ s ++ "'"
  | .num n => "number " ++ n.text
  | .true => "'true'"
  | .false => "'false'"
  | .and => "'&&'"
  | .or => "'||'"
  | .not => "'!'"
  | .eq => "'=='"
  | .ne => "'!='"
  | .lt => "'<'"
  | .le => "'<='"
  | .gt => "'>'"
  | .ge => "'>='"
  | .lparen => "'('"
  | .rparen => "')'"
  | .comma => "','"

/-- What can be wrong with the text of an expression. -/
inductive Fault where
  | empty
  | strayCharacter (c : Char)
  | halfOperator (c : Char)
  | openString
  | badNumber (text : String)
  | tooDeep
  | endOfText
  | noValue (found : Token)
  | extra (found : Token)
  | strayClose
  | openParen
  | openCall
  deriving DecidableEq

/-- The wording of a fault. -/
def Fault.message : Fault → String
  | .empty => "empty expression"
  | .strayCharacter c => "unexpected character '" ++ c.toString ++ "'"
  | .halfOperator c =>
    "unexpected '" ++ c.toString ++ "', did you mean '" ++ c.toString ++ c.toString ++ "'?"
  | .openString => "unterminated string literal"
  | .badNumber text => "invalid number '" ++ text ++ "'"
  | .tooDeep => "expression nested too deeply"
  | .endOfText => "unexpected end of expression"
  | .noValue found => "expected a value, found " ++ found.describe
  | .extra found => "unexpected " ++ found.describe
  | .strayClose => "unmatched closing parenthesis"
  | .openParen => "unmatched opening parenthesis"
  | .openCall => "unmatched opening parenthesis in function call"

/-- A fault and the byte offset at which it was noticed. -/
structure Malformed where
  offset : Nat
  fault : Fault
  deriving DecidableEq

/-- A token and the byte offset of its first character. -/
structure Placed where
  offset : Nat
  token : Token
  deriving DecidableEq

namespace Token

/-- The rest of a string literal after its opening quote: the text denoted, and the number of
characters up to and including the closing quote. A backslash takes the next character literally,
except that `n` and `t` stand for line feed and tab. -/
def quoted? (quote : Char) : List Char → Option (List Char × Nat)
  | [] => none
  | '\\' :: rest =>
    match rest with
    | [] => none
    | c :: rest =>
      let denoted := if c = 'n' then '\n' else if c = 't' then '\t' else c
      (quoted? quote rest).map fun (cs, n) => (denoted :: cs, n + 2)
  | c :: rest =>
    if c = quote then some ([], 1)
    else (quoted? quote rest).map fun (cs, n) => (c :: cs, n + 1)

/-- The number of leading characters that may continue a number. -/
def numberRun (cs : List Char) : Nat := (cs.takeWhile fun c => c.isDigit || c = '.').length

/-- The number of leading characters that may continue an identifier. -/
def identRun (cs : List Char) : Nat :=
  (cs.takeWhile fun c => c.isAlphanum || c = '_' || c = '.' || c = '-').length

/-- The number that starts with `c` and goes on in `rest`. -/
def number (c : Char) (rest : List Char) : Except Fault (Token × Nat) :=
  let n := numberRun rest
  let spelling := c :: rest.take n
  match Number.ofPlain? spelling with
  | some x => .ok (.num x, n)
  | none => .error (.badNumber (String.ofList spelling))

/-- The string literal that starts with the quote `c` and goes on in `rest`. -/
def literal (c : Char) (rest : List Char) : Except Fault (Token × Nat) :=
  match quoted? c rest with
  | some (cs, n) => .ok (.str (String.ofList cs), n)
  | none => .error .openString

/-- The identifier or truth value that starts with `c` and goes on in `rest`. -/
def word (c : Char) (rest : List Char) : Token × Nat :=
  let n := identRun rest
  let spelling := String.ofList (c :: rest.take n)
  (if spelling = "true" then .true else if spelling = "false" then .false else .ident spelling, n)

/-- The token that starts with `c`, which is not blank, and the number of characters of `rest` that
belong to it. -/
def first (c : Char) (rest : List Char) : Except Fault (Token × Nat) :=
  match c, rest with
  | '(', _ => .ok (.lparen, 0)
  | ')', _ => .ok (.rparen, 0)
  | ',', _ => .ok (.comma, 0)
  | '&', '&' :: _ => .ok (.and, 1)
  | '|', '|' :: _ => .ok (.or, 1)
  | '=', '=' :: _ => .ok (.eq, 1)
  | '!', '=' :: _ => .ok (.ne, 1)
  | '!', _ => .ok (.not, 0)
  | '<', '=' :: _ => .ok (.le, 1)
  | '<', _ => .ok (.lt, 0)
  | '>', '=' :: _ => .ok (.ge, 1)
  | '>', _ => .ok (.gt, 0)
  | c, rest =>
    if c = '\'' || c = '"' then literal c rest
    else if c.isDigit || (c = '-' && (rest.head?.any Char.isDigit)) then number c rest
    else if c.isAlpha || c = '_' then .ok (word c rest)
    else if c = '&' || c = '|' || c = '=' then .error (.halfOperator c)
    else .error (.strayCharacter c)

/-- The tokens of a text whose first character has the given byte offset. -/
def scanFrom (offset : Nat) : List Char → Except Malformed (List Placed)
  | [] => .ok []
  | c :: rest =>
    if Text.isAsciiBlank c then scanFrom (offset + c.utf8Size) rest
    else
      match first c rest with
      | .error fault => .error ⟨offset, fault⟩
      | .ok (token, n) => do
        let next := offset + c.utf8Size + Text.byteLength (rest.take n)
        let tokens ← scanFrom next (rest.drop n)
        return ⟨offset, token⟩ :: tokens
termination_by cs => cs.length
decreasing_by all_goals simp; try omega

/-- The tokens of a text, in order. -/
def scan (text : String) : Except Malformed (List Placed) := scanFrom 0 text.toList

end Token
end StageFlow
