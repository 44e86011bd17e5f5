import StageFlow.Number.Basic
import StageFlow.Text.Blank

/-!
# Decimal text of numbers

`Number.ofPlain?` reads plain decimals: an optional sign, digits and at most one point between
digits. `Number.ofText?` also reads exponents and the words for infinity and `NaN`.

`Number.text` writes a number. An integer below `10 ^ 15` is written as an integer; every other
number with the fewest digits that read back as the same number, never with an exponent.
-/

namespace StageFlow.Number

/-- The value of a row of decimal digits. -/
def digitsValue (ds : List Char) : Nat :=
  ds.foldl (fun n c => 10 * n + (c.toNat - '0'.toNat)) 0

/-- The decimal digits of a natural number. -/
def digitsOf (n : Nat) : List Char := Nat.toDigits 10 n

/-- Takes off a sign; the first part says whether it was a minus. -/
def unsigned : List Char → Bool × List Char
  | '-' :: ds => (true, ds)
  | '+' :: ds => (false, ds)
  | ds => (false, ds)

/-- The number written by digits with at most one point; the caller has checked the characters. -/
def ofPointed (negative : Bool) (ds : List Char) (exponent : Int) : Number :=
  let fraction := (ds.dropWhile (· ≠ '.')).drop 1
  ofDecimal negative (digitsValue (ds.filter (· ≠ '.'))) (exponent - fraction.length)

/-- A plain decimal with blanks around it: sign, digits, and at most one point, which stands
between digits. -/
def ofPlain? (cs : List Char) : Option Number :=
  let (negative, ds) := unsigned (Text.trim cs)
  if ds.isEmpty || ds.head? = some '.' || ds.getLast? = some '.' ||
      !ds.all (fun c => c.isDigit || c = '.') || 1 < ds.count '.' then none
  else some (ofPointed negative ds 0)

/-- An exponent: sign and digits. -/
def exponent? (cs : List Char) : Option Int :=
  let (negative, ds) := unsigned cs
  if ds.isEmpty || !ds.all Char.isDigit then none
  else some (if negative then -(digitsValue ds : Int) else digitsValue ds)

/-- Any written number: decimals whose point may also stand at an end, exponents, and the words
`inf`, `infinity` and `nan` in upper or lower case. -/
def ofText? (s : String) : Option Number :=
  let (negative, ds) := unsigned s.toList
  let word := String.ofList (ds.map Char.toLower)
  if word = "inf" || word = "infinity" then some (infinity negative)
  else if word = "nan" then some .nan
  else
    let mantissa := ds.takeWhile fun c => c ≠ 'e' && c ≠ 'E'
    let rest := ds.drop mantissa.length
    if !mantissa.all (fun c => c.isDigit || c = '.') || !mantissa.any Char.isDigit ||
        1 < mantissa.count '.' then none
    else match rest with
      | [] => some (ofPointed negative mantissa 0)
      | _ :: e => (exponent? e).map (ofPointed negative mantissa)

/-- Places the point in `digits · 10 ^ exponent`. -/
def positional (digits : Nat) (exponent : Int) : List Char :=
  let ds := digitsOf digits
  if 0 ≤ exponent then ds ++ List.replicate exponent.toNat '0'
  else
    let places := (-exponent).toNat
    if places < ds.length then
      ds.take (ds.length - places) ++ '.' :: ds.drop (ds.length - places)
    else '0' :: '.' :: List.replicate (places - ds.length) '0' ++ ds

/-- Moves zeros at the end of the digits into the exponent. -/
def stripZeros : Nat → Nat → Int → Nat × Int
  | 0, digits, exponent => (digits, exponent)
  | fuel + 1, digits, exponent =>
    if digits ≠ 0 && digits % 10 = 0 then stripZeros fuel (digits / 10) (exponent + 1)
    else (digits, exponent)

/-- The number of digits before the point, negative if zeros follow the point. -/
def decimalSize (rank : Nat) : Int :=
  ((digitsOf (magnitude rank * tenTo 400 / twoTo 1074)).length : Int) - 400

/-- The point of the grid `10 ^ exponent` that stands for a rank: one that reads back as the rank,
the nearer one of two, the larger one of two equally near. -/
def gridPoint? (rank : Nat) (exponent : Int) : Option Nat :=
  let up := tenTo (-exponent).toNat
  let num := magnitude rank * up
  let den := twoTo 1074 * tenTo exponent.toNat
  let low := (magnitude (rank - 1) + magnitude rank) * up
  let high := (magnitude rank + magnitude (rank + 1)) * up
  let reads (c : Nat) : Bool :=
    let x := 2 * c * den
    if rank % 2 = 0 then low ≤ x && x ≤ high else low < x && x < high
  let c := num / den
  match reads c, reads (c + 1) with
  | true, true => some (if 2 * (num % den) < den then c else c + 1)
  | true, false => some c
  | false, true => some (c + 1)
  | false, false => none

/-- The fewest digits that read back as the rank, with their exponent. Seventeen always suffice. -/
def shortest (rank : Nat) : Nat × Int :=
  let size := decimalSize rank
  let found := (List.range 17).findSome? fun (n : Nat) =>
    let exponent := size - (n + 1 : Nat)
    (gridPoint? rank exponent).map fun c => (c, exponent)
  let (digits, exponent) := found.getD (0, 0)
  stripZeros 20 digits exponent

/-- The sign in front of a text. -/
def withSign (negative : Bool) (cs : List Char) : List Char := if negative then '-' :: cs else cs

/-- The text of a number with the fewest digits, positional throughout. -/
def shortestText : Number → List Char
  | .nan => "NaN".toList
  | .signed negative rank =>
    if rank.val = infiniteRank then withSign negative "inf".toList
    else if rank.val = 0 then withSign negative ['0']
    else
      let (digits, exponent) := shortest rank
      withSign negative (positional digits exponent)

/-- The text of a number: integers below `10 ^ 15` as integers, zero without a sign. -/
def text (n : Number) : String :=
  match integral? n with
  | some (negative, i) =>
    if i < tenTo 15 then String.ofList (withSign (negative && i ≠ 0) (digitsOf i))
    else String.ofList (shortestText n)
  | none => String.ofList (shortestText n)

end StageFlow.Number
