import StageFlow.Number.Decimal
import StageFlow.Shell.Arith
import StageFlow.Shell.Basic

/-!
# Printing

The two commands that print their arguments: `echo`, which replaces escapes, and `printf`, which fills a
format and goes through it again as long as arguments are left.
-/

namespace StageFlow.Shell.Printing

/-- A character as bytes. -/
def charBytes (c : Char) : List UInt8 := bytesOf (String.singleton c)

/-- The byte for the letter of an escape. -/
def letterByte? : Char → Option UInt8
  | 'a' => some 7
  | 'b' => some 8
  | 'e' => some 27
  | 'f' => some 12
  | 'n' => some 10
  | 'r' => some 13
  | 't' => some 9
  | 'v' => some 11
  | '\\' => some 92
  | _ => none

/-- The bytes of what follows a backslash, and what is left. -/
def escape (cs : List Char) : List UInt8 × List Char :=
  let digits := (cs.take 3).takeWhile fun c => '0' ≤ c && c ≤ '7'
  if digits.isEmpty then
    match cs with
    | c :: rest =>
      match letterByte? c with
      | some b => ([b], rest)
      | none => ([92], cs)
    | [] => ([92], [])
  else (((Arith.natOf? 8 digits).map Nat.toUInt8).toList, cs.drop digits.length)

/-- The bytes of a text whose escapes are replaced, and whether an escape ended it. -/
def unescape : Nat → List Char → List UInt8 × Bool
  | 0, _ | _, [] => ([], false)
  | fuel + 1, '\\' :: cs =>
    match cs with
    | 'c' :: _ => ([], true)
    | cs =>
      let (bytes, rest) := match cs with
        | '0' :: d :: ds => if '0' ≤ d && d ≤ '7' then escape (d :: ds) else escape cs
        | cs => escape cs
      let (more, stopped) := unescape fuel rest
      (bytes ++ more, stopped)
  | fuel + 1, c :: cs =>
    let (more, stopped) := unescape fuel cs
    (charBytes c ++ more, stopped)

/-- Prints arguments with blanks between them. -/
def echo (args : List String) : Act Nat := do
  let (newline, args) : List UInt8 × List String := match args with
    | "-n" :: rest => ([], rest)
    | args => ([10], args)
  let text := (" ".intercalate args).toList
  let (bytes, stopped) := unescape (text.length + 1) text
  emit .out (if stopped then bytes else bytes ++ newline)
  return 0

/-- How a directive of a format prints its argument. -/
structure Directive where
  left : Bool := false
  sign : Bool := false
  blank : Bool := false
  zeros : Bool := false
  alternate : Bool := false
  width : Nat := 0
  precision : Option Nat := none

/-- Fills a text up to the width. -/
def Directive.pad (d : Directive) (bytes : List UInt8) : List UInt8 :=
  let filling := List.replicate (d.width - bytes.length) (32 : UInt8)
  if d.left then bytes ++ filling else filling ++ bytes

/-- A number with its sign and its digits. -/
def Directive.number (d : Directive) (negative : Bool) (digits : String) : List UInt8 :=
  let sign := if negative then "-" else if d.sign then "+" else if d.blank then " " else ""
  let least := match d.precision with
    | some p => p
    | none => if d.zeros && !d.left then d.width - sign.length else 0
  let zeros := String.ofList (List.replicate (least - digits.length) '0')
  d.pad (bytesOf (sign ++ zeros ++ digits))

/-- The digits of a number in a base, in small or capital letters. -/
def digitsIn (base n : Nat) (capital : Bool) : String :=
  let ds := String.ofList (Nat.toDigits base n)
  if capital then ds.toUpper else ds

/-- Reads the flags of a directive. -/
def flags : Directive → List Char → Directive × List Char
  | d, '-' :: cs => flags { d with left := true } cs
  | d, '+' :: cs => flags { d with sign := true } cs
  | d, ' ' :: cs => flags { d with blank := true } cs
  | d, '0' :: cs => flags { d with zeros := true } cs
  | d, '#' :: cs => flags { d with alternate := true } cs
  | d, cs => (d, cs)

/-- Reads a size: digits, or the next argument. -/
def size (cs : List Char) (args : List String) : Option Nat × List Char × List String :=
  match cs with
  | '*' :: cs => (((args.headD "").toNat?).getD 0, cs, args.tail)
  | cs =>
    let ds := cs.takeWhile Char.isDigit
    (Arith.natOf? 10 ds, cs.drop ds.length, args)

/-- The number that an argument denotes. -/
def numberOf (arg : String) : Act (Int × Bool) := do
  match arg.toList with
  | '\'' :: c :: _ | '"' :: c :: _ => return (c.toNat, true)
  | _ =>
    match Arith.ofText? arg with
    | some n => return (n, true)
    | none => do
      complainHere ("printf: " ++ arg ++ ": expected numeric value")
      return (0, false)

/-- The number with a fraction that an argument denotes. -/
def fractionOf (arg : String) : Act (Number × Bool) := do
  match Number.ofText? arg with
  | some n => return (n, true)
  | none => do
    complainHere ("printf: " ++ arg ++ ": expected numeric value")
    return (.ofInt 0, false)

/-- A number with as many decimals as the precision says. -/
def Directive.decimal (d : Directive) : Number → List UInt8
  | .nan => { d with zeros := false, precision := none }.number false "nan"
  | .signed negative rank =>
    if rank.val = Number.infiniteRank then
      { d with zeros := false, precision := none }.number negative "inf"
    else
      let places := d.precision.getD 6
      let scaled := Number.roundEven (Number.magnitude rank * tenTo places) (twoTo 1074)
      let digits := (Nat.toDigits 10 scaled).leftpad (places + 1) '0'
      let (whole, decimals) := digits.splitAt (digits.length - places)
      { d with precision := none }.number negative
        (String.ofList (if places = 0 then whole else whole ++ '.' :: decimals))

/-- Prints one pass of a format: the arguments left, whether all arguments were fit, and whether an
escape or a bad directive ended it all. -/
def pass : Nat → List Char → List String → Act (List String × Bool × Bool)
  | 0, _, args | _, [], args => return (args, true, false)
  | fuel + 1, '\\' :: cs, args => do
    let (bytes, rest) := escape cs
    emit .out bytes
    pass fuel rest args
  | fuel + 1, '%' :: '%' :: cs, args => do
    emit .out (charBytes '%')
    pass fuel cs args
  | fuel + 1, '%' :: cs, args => do
    let (d, afterFlags) := flags {} cs
    let (width, afterWidth, args) := size afterFlags args
    let (precision, rest, args) := match afterWidth with
      | '.' :: cs =>
        let (p, cs, args) := size cs args
        (some (p.getD 0), cs, args)
      | cs => (none, cs, args)
    let d := { d with width := width.getD 0, precision }
    let arg := args.headD ""
    let cutOff (bytes : List UInt8) : List UInt8 :=
      match precision with
      | some p => bytes.take p
      | none => bytes
    let next (fine : Bool) (rest : List Char) : Act (List String × Bool × Bool) := do
      let (args, fit, ended) ← pass fuel rest args.tail
      return (args, fine && fit, ended)
    match rest with
    | 's' :: rest => do
      emit .out (d.pad (cutOff (bytesOf arg)))
      next true rest
    | 'b' :: rest => do
      let (bytes, stopped) := unescape (arg.length + 1) arg.toList
      emit .out (d.pad (cutOff bytes))
      if stopped then return (args, true, true) else next true rest
    | 'c' :: rest => do
      emit .out (d.pad (bytesOf (String.ofList (arg.toList.take 1))))
      next true rest
    | c :: rest =>
      if c ∈ ['d', 'i', 'u', 'o', 'x', 'X'] then do
        let (n, fine) ← if args.isEmpty then pure (0, true) else numberOf arg
        let bits := Arith.bits n
        emit .out <| match c with
          | 'u' => d.number false bits.repr
          | 'o' => d.number false ((if d.alternate then "0" else "") ++ digitsIn 8 bits false)
          | 'x' => d.number false ((if d.alternate then "0x" else "") ++ digitsIn 16 bits false)
          | 'X' => d.number false ((if d.alternate then "0X" else "") ++ digitsIn 16 bits true)
          | _ => d.number (n < 0) n.natAbs.repr
        next fine rest
      else if c = 'f' then do
        let (number, fine) ← if args.isEmpty then pure (Number.ofInt 0, true) else fractionOf arg
        emit .out (d.decimal number)
        next fine rest
      else bad (String.ofList ('%' :: cs.take (cs.length - rest.length)) ++ ": invalid directive")
    | [] => bad "missing format character"
  | fuel + 1, c :: cs, args => do
    let plain := cs.takeWhile fun c => c ≠ '\\' && c ≠ '%'
    emit .out (bytesOf (String.ofList (c :: plain)))
    pass fuel (cs.drop plain.length) args
where
  bad (why : String) : Act (List String × Bool × Bool) := do
    complainHere ("printf: " ++ why)
    return ([], false, true)

/-- Goes through a format until the arguments are used up. -/
def passes : Nat → List Char → List String → Act Nat
  | 0, _, _ => return 0
  | rounds + 1, format, args => do
    let (left, fit, ended) ← pass (format.length + 1) format args
    let more := !ended && !left.isEmpty && left.length < args.length
    let status ← if more then passes rounds format left else pure 0
    return if fit then status else if ended then 2 else 1

/-- Prints arguments in a format. -/
def printf (args : List String) : Act Nat := do
  let args := if args.head? = some "--" then args.tail else args
  match args with
  | [] => do
    complainHere "printf: usage: printf format [arg ...]"
    return 2
  | format :: args => do
    let s ← get
    let out := s.out
    set { s with out := .held, held := [] }
    let status ← passes (args.length + 1) format.toList args
    let t ← get
    set { t with out, held := s.held }
    emit .out t.held.reverse.flatten
    return status

end StageFlow.Shell.Printing
