import StageFlow.Number.Decimal

/-!
# Values

What expressions compute: a string, a number or a truth value. `Value.text` is the string form that
templates insert, and `Value.compare` the order behind the comparison operators.
-/

namespace StageFlow

/-- A scalar value. -/
inductive Value where
  | str (s : String)
  | num (n : Number)
  | bool (b : Bool)
  deriving DecidableEq

/-- Order of texts by their UTF-8 bytes, which is the order by code points. -/
def Text.compareText (a b : List Char) : Ordering :=
  List.compareLex (fun c d => compare c.toNat d.toNat) a b

namespace Value

/-- The string form. -/
def text : Value → String
  | .str s => s
  | .num n => n.text
  | .bool true => "true"
  | .bool false => "false"

/-- The empty string, the string `false`, zero, `NaN` and `false` count as false. -/
def isTruthy : Value → Bool
  | .str s => !(s = "" || s = "false")
  | .num .nan => false
  | .num n => !n.isZero
  | .bool b => b

/-- The number that the value stands for: itself, or a string that is a plain decimal. -/
def number? : Value → Option Number
  | .num n => some n
  | .str s => Number.ofPlain? s.toList
  | .bool _ => none

/-- Both numbers of a pair in which one side is a number and the other has a numeric form. -/
def numbers? (a b : Value) : Option (Number × Number) :=
  match a, b with
  | .num _, _ | _, .num _ => do return (← a.number?, ← b.number?)
  | _, _ => none

/-- Numeric if one side is a number and the other side has a numeric form, `NaN` being equal to
everything; by string form otherwise. -/
def compare (a b : Value) : Ordering :=
  match numbers? a b with
  | some (x, y) => (x.compare? y).getD .eq
  | none => Text.compareText a.text.toList b.text.toList

end Value
end StageFlow
