import StageFlow.Number.Power

/-!
# Numbers

Numbers are the binary floating-point numbers with 53 significant bits and a smallest unit of
`2 ^ (-1074)`. The numbers without a sign form one increasing row

  `0, 2 ^ (-1074), 2 · 2 ^ (-1074), …, infinity`

and a number is represented by its place in that row, its *rank*, together with a sign. So the order
of ranks is the order of values, and rounding is a choice between two neighbouring ranks.

* `Number.magnitude` gives the value of a rank in units of `2 ^ (-1074)`.
* `Number.nearestRank` rounds a ratio of natural numbers, a tie going to the even rank.
* `Number.compare?` compares by value; `nan` has no place in the order.
-/

namespace StageFlow

/-- The rank of infinity. -/
def Number.infiniteRank : Nat := 2047 * twoTo 52

/-- A number: not a number at all, or a sign and a rank. Zero occurs with both signs. -/
inductive Number where
  | nan
  | signed (negative : Bool) (rank : Fin (Number.infiniteRank + 1))
  deriving DecidableEq

namespace Number

/-- The value of a rank in units of `2 ^ (-1074)`. The first `2 ^ 53` ranks are one unit apart; each
later run of `2 ^ 52` ranks is spaced twice as widely as the one before. -/
def magnitude (rank : Nat) : Nat :=
  if rank < twoTo 52 then rank
  else (twoTo 52 + rank % twoTo 52) * twoTo (rank / twoTo 52 - 1)

/-- The quotient rounded to the nearest natural number, a half to the even one. -/
def roundEven (n d : Nat) : Nat :=
  let t := n / d
  let r := n % d
  if 2 * r < d then t else if d < 2 * r then t + 1 else t + t % 2

/-- The rank nearest to `p / q`, not yet limited to the rank of infinity. -/
def nearestRank (p q : Nat) : Nat :=
  let k := Nat.log2 (p * twoTo 1074 / q) - 52
  k * twoTo 52 + roundEven (p * twoTo 1074) (q * twoTo k)

/-- A number with the given sign whose rank is cut off at infinity. -/
def ofRank (negative : Bool) (rank : Nat) : Number :=
  .signed negative ⟨min rank infiniteRank, Nat.lt_succ_of_le (Nat.min_le_right ..)⟩

/-- Infinity with the given sign. -/
def infinity (negative : Bool) : Number := ofRank negative infiniteRank

/-- The number nearest to `p / q`. -/
def ofRatio (negative : Bool) (p q : Nat) : Number := ofRank negative (nearestRank p q)

/-- The number nearest to `digits · 10 ^ exponent`. Exponents beyond every finite number are
settled without computing the power. -/
def ofDecimal (negative : Bool) (digits : Nat) (exponent : Int) : Number :=
  if digits = 0 then ofRank negative 0
  else
    let size := exponent + (Nat.toDigits 10 digits).length
    if size > 400 then infinity negative
    else if size < -400 then ofRank negative 0
    else if 0 ≤ exponent then ofRatio negative (digits * tenTo exponent.toNat) 1
    else ofRatio negative digits (tenTo (-exponent).toNat)

/-- The number nearest to an integer. -/
def ofInt (i : Int) : Number := ofRatio (i < 0) i.natAbs 1

/-- The number zero, with either sign. -/
def isZero : Number → Bool
  | .nan => false
  | .signed _ rank => rank.val = 0

/-- Place in the order of all values; both zeros share a place. -/
def place (negative : Bool) (rank : Nat) : Int := if negative then -(rank : Int) else rank

/-- Order by value; nothing compares with `nan`. -/
def compare? : Number → Number → Option Ordering
  | .signed s r, .signed t q => some (compare (place s r) (place t q))
  | _, _ => none

/-- The integer that the number is, sign and magnitude apart, if it is one. -/
def integral? : Number → Option (Bool × Nat)
  | .nan => none
  | .signed negative rank =>
    let m := magnitude rank
    if rank.val = infiniteRank then none
    else if m % twoTo 1074 = 0 then some (negative, m / twoTo 1074) else none

end Number
end StageFlow
