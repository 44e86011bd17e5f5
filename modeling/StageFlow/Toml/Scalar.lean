import StageFlow.Toml.Basic

/-!
# Numbers, dates and times

Reading the unquoted scalars of configuration files from their characters. Digits may be grouped by
single underscores between digits. Dates and times are checked against the calendar and written in a
uniform way: `T` between date and time, and no zeros at the end of a fraction.
-/

namespace StageFlow.Toml

/-- Digits grouped by single underscores, without the underscores. -/
def ungrouped? (isDigit : Char → Bool) (cs : List Char) : Option (List Char) :=
  let groups := cs.splitOn '_'
  if groups.all (fun g => !g.isEmpty && g.all isDigit) then some groups.flatten else none

/-- The value of digits in a base. -/
def valueIn (base : Nat) (cs : List Char) : Nat :=
  cs.foldl (fun n c =>
    base * n + (if c.isDigit then c.toNat - 48 else c.toLower.toNat - 87)) 0

/-- A hexadecimal digit. -/
def isHex (c : Char) : Bool := c.isDigit || ('a' ≤ c ∧ c ≤ 'f') || ('A' ≤ c ∧ c ≤ 'F')

/-- Decimal digits without leading zeros. -/
def decimal? (cs : List Char) : Option (List Char) := do
  let ds ← ungrouped? Char.isDigit cs
  if 1 < ds.length && ds.head? = some '0' then none
  return ds

/-- Takes off a sign. -/
def signed : List Char → Bool × List Char
  | '-' :: cs => (true, cs)
  | '+' :: cs => (false, cs)
  | cs => (false, cs)

/-- An integer: decimal with a sign, or in base 16, 8 or 2. -/
def integer? (cs : List Char) : Option Int :=
  match cs with
  | '0' :: 'x' :: ds => (ungrouped? isHex ds).map fun ds => valueIn 16 ds
  | '0' :: 'o' :: ds => (ungrouped? (fun c => '0' ≤ c ∧ c ≤ '7') ds).map fun ds => valueIn 8 ds
  | '0' :: 'b' :: ds => (ungrouped? (fun c => c = '0' || c = '1') ds).map fun ds => valueIn 2 ds
  | cs =>
    let (negative, ds) := signed cs
    (decimal? ds).map fun ds =>
      let n : Int := valueIn 10 ds
      if negative then -n else n

/-- A number with a fraction, an exponent or both, or one of the words `inf` and `nan`. A number too
large to be finite is refused. -/
def float? (cs : List Char) : Option Number := do
  let (negative, ds) := signed cs
  if ds = "inf".toList then return Number.infinity negative
  if ds = "nan".toList then return .nan
  let mantissa := ds.takeWhile fun c => c ≠ 'e' && c ≠ 'E'
  let exponent ← match ds.drop mantissa.length with
    | [] => some 0
    | _ :: e => do
      let (minus, es) := signed e
      let es ← ungrouped? Char.isDigit es
      let n : Int := valueIn 10 es
      some (if minus then -n else n)
  let pointed ← match Text.cutAt? '.' mantissa with
    | some (whole, fraction) => do
      let whole ← decimal? whole
      let fraction ← ungrouped? Char.isDigit fraction
      some (whole ++ '.' :: fraction)
    | none => if mantissa.length < ds.length then decimal? mantissa else none
  let n := Number.ofPointed negative pointed exponent
  if n = Number.infinity negative then none
  return n

/-- A number of exactly the given digits. -/
def exactly? (size : Nat) (cs : List Char) : Option Nat :=
  if cs.length = size && cs.all Char.isDigit then some (valueIn 10 cs) else none

/-- The number of days of a month. -/
def daysIn (year month : Nat) : Nat :=
  if month = 2 then if year % 4 = 0 && (year % 100 ≠ 0 || year % 400 = 0) then 29 else 28
  else if month = 4 || month = 6 || month = 9 || month = 11 then 30
  else 31

/-- A date in the calendar. -/
def isDate (cs : List Char) : Bool :=
  match cs.splitOn '-' with
  | [y, m, d] =>
    match exactly? 4 y, exactly? 2 m, exactly? 2 d with
    | some y, some m, some d => 1 ≤ m && m ≤ 12 && 1 ≤ d && d ≤ daysIn y m
    | _, _, _ => false
  | _ => false

/-- A time of day in a uniform way. Of a fraction nine digits count. -/
def time? (cs : List Char) : Option (List Char) := do
  let (clock, fraction) := match Text.cutAt? '.' cs with
    | some (a, b) => (a, some b)
    | none => (cs, none)
  match clock.splitOn ':' with
  | [h, m, s] =>
    let hh ← exactly? 2 h
    let mm ← exactly? 2 m
    let ss ← exactly? 2 s
    if 23 < hh || 59 < mm || 60 < ss then none
    match fraction with
    | none => return clock
    | some f =>
      if f.isEmpty || !f.all Char.isDigit then none
      let kept := ((f.take 9).reverse.dropWhile (· = '0')).reverse
      return if kept.isEmpty then clock else clock ++ '.' :: kept
  | _ => none

/-- An offset from universal time, with hours and minutes. -/
def isOffset (cs : List Char) : Bool :=
  match cs.splitOn ':' with
  | [h, m] =>
    match exactly? 2 h, exactly? 2 m with
    | some h, some m => h ≤ 23 && m ≤ 59
    | _, _ => false
  | _ => false

/-- A time of day with an optional offset. -/
def offsetTime? (cs : List Char) : Option (List Char) :=
  let clock := cs.takeWhile fun c => c ≠ 'Z' && c ≠ 'z' && c ≠ '+' && c ≠ '-'
  match cs.drop clock.length with
  | [] => time? clock
  | c :: rest => do
    let t ← time? clock
    if c = 'Z' || c = 'z' then if rest.isEmpty then return t ++ ['Z'] else none
    else if isOffset rest then return t ++ (if rest = "00:00".toList then '+' else c) :: rest
    else none

/-- A date, a time, or both. -/
def datetime? (cs : List Char) : Option (List Char) :=
  if cs.length < 10 then time? cs
  else
    let date := cs.take 10
    match cs.drop 10 with
    | [] => if isDate date then some date else time? cs
    | c :: rest =>
      if isDate date && (c = 'T' || c = 't' || c = ' ') then
        (offsetTime? rest).map fun t => date ++ 'T' :: t
      else time? cs

/-- The integers of 128 bits, with a sign or without one. -/
def isWide (i : Int) : Bool := -(twoTo 127 : Int) ≤ i && i < twoTo 128

/-- The value of the characters of an unquoted scalar. -/
def scalar? (cs : List Char) : Option Toml :=
  if cs = "true".toList then some (.bool true)
  else if cs = "false".toList then some (.bool false)
  else match integer? cs with
    | some i => if isWide i then some (.int i) else none
    | none =>
      match float? cs with
      | some n => some (.float n)
      | none => (datetime? cs).map fun t => .datetime (String.ofList t)

end StageFlow.Toml
