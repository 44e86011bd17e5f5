import StageFlow.Text.Blank
import StageFlow.Text.Quoted

/-!
# Log entries

What a run has to say about itself besides its results. An entry is a fixed message with named
fields; how entries are shown is decided by whoever collects them.
-/

namespace StageFlow

/-- How much an entry matters, the most severe first. -/
inductive Level where
  | error | warn | info | debug | trace
  deriving DecidableEq

namespace Level

/-- Position from the most to the least severe. -/
def rank : Level → Nat
  | .error => 0
  | .warn => 1
  | .info => 2
  | .debug => 3
  | .trace => 4

/-- Whether entries of this level are kept when `threshold` is the least severe level kept. -/
def within (l threshold : Level) : Bool := l.rank ≤ threshold.rank

/-- The name in capitals. -/
def name : Level → String
  | .error => "ERROR"
  | .warn => "WARN"
  | .info => "INFO"
  | .debug => "DEBUG"
  | .trace => "TRACE"

/-- Reads the name of a level, in either case and with blanks around it. -/
def ofText? (text : String) : Option Level :=
  match String.ofList ((Text.trim text.toList).map Char.toLower) with
  | "error" => some .error
  | "warn" | "warning" => some .warn
  | "info" => some .info
  | "debug" => some .debug
  | "trace" => some .trace
  | _ => none

end Level

/-- The value of a field: a finished text, or a string, which is quoted where fields are named. -/
inductive LogValue where
  | shown (text : String)
  | str (text : String)
  deriving DecidableEq

/-- The bare text of a field. -/
def LogValue.text : LogValue → String
  | .shown s | .str s => s

/-- A log entry. -/
structure LogEntry where
  level : Level
  message : String
  fields : List (String × LogValue)
  deriving DecidableEq

namespace LogEntry

/-- A character of a message; characters that terminals act on are written by number. -/
def harmless (c : Char) : List Char :=
  if c ∈ ['\x07', '\x08', '\x0c', '\x1b', '\x7f'] then
    '\\' :: 'x' :: (if c.toNat < 16 then ['0'] else []) ++ Text.hex c.toNat
  else if 0x80 ≤ c.toNat && c.toNat ≤ 0x9f then
    ['\\', 'u', '\x7b'] ++ Text.hex c.toNat ++ ['\x7d']
  else [c]

/-- One line: the message and the fields with their names, except that a field called `message` has
its bare text only. Strings are quoted. -/
def line (e : LogEntry) : String :=
  " ".intercalate (e.message :: e.fields.map fun (k, v) =>
    let text := match v with
      | .shown s => s
      | .str s => Text.quoted s
    if k = "message" then String.ofList (text.toList.flatMap harmless) else k ++ "=" ++ text)

end LogEntry
end StageFlow
