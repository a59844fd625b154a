/-!
# Binary64 numbers

A number of the binary64 format: a signed `mantissa * 2 ^ exponent`, an infinity, or the one
not-a-number.  A finite number made here has a mantissa below `2 ^ 53` and an exponent between
`-1074` and `971`, and a mantissa of at least `2 ^ 52` unless the exponent is `-1074`, so every
value has one form.  The only arithmetic is rounding a decimal to the nearest number.
-/

namespace CrossChain

/-- A binary64 number. -/
inductive Binary64
  | nan
  | infinite (negative : Bool)
  | finite (negative : Bool) (mantissa : Nat) (exponent : Int)
  deriving DecidableEq, Repr, Inhabited

namespace Binary64

/-- The least exponent of a finite number. -/
def minExponent : Int := -1074

/-- The greatest exponent of a finite number. -/
def maxExponent : Int := 971

/-- The power of two. -/
def twoTo (n : Nat) : Nat := Nat.pow 2 n

/-- The power of ten. -/
def tenTo (n : Nat) : Nat := Nat.pow 10 n

/-- The zero of the given sign. -/
def zero (negative : Bool) : Binary64 := .finite negative 0 minExponent

/-- The quotient rounded to the nearest natural number, a tie to the even one. -/
def roundQuotient (num den : Nat) : Nat :=
  let q := num / den
  let r := 2 * (num % den)
  if r < den then q else if den < r then q + 1 else q + q % 2

/-- The number nearest to `num / den`, for positive `num` and `den`; a tie goes to the even
mantissa, and what rounds beyond the greatest finite number is infinite. -/
def ofRatio (negative : Bool) (num den : Nat) : Binary64 :=
  let guess : Int := (Nat.log2 num : Int) - Nat.log2 den
  let reached :=
    if 0 ≤ guess then den * twoTo guess.toNat ≤ num else den ≤ num * twoTo (-guess).toNat
  let magnitude := if reached then guess else guess - 1
  let exponent := max (magnitude - 52) minExponent
  let mantissa := roundQuotient (num * twoTo (-exponent).toNat) (den * twoTo exponent.toNat)
  let carried := mantissa = twoTo 53
  let exponent := if carried then exponent + 1 else exponent
  let mantissa := if carried then twoTo 52 else mantissa
  if maxExponent < exponent then .infinite negative else .finite negative mantissa exponent

/-- How many decimal digits a natural number has. -/
def digitCount (n : Nat) : Nat := (Nat.toDigits 10 n).length

/-- The number nearest to `digits * 10 ^ exponent`. -/
def ofDecimal (negative : Bool) (digits : Nat) (exponent : Int) : Binary64 :=
  if digits = 0 then zero negative
  else
    let magnitude := exponent + digitCount digits
    if 310 < magnitude then .infinite negative
    else if magnitude < -330 then zero negative
    else ofRatio negative (digits * tenTo exponent.toNat) (tenTo (-exponent).toNat)

/-- Whether the number is a zero of either sign. -/
def isZero : Binary64 → Bool
  | .finite _ m _ => m == 0
  | _ => false

/-- The integer part, toward zero, of a finite number. -/
def truncate? : Binary64 → Option Int
  | .finite negative m e =>
    let whole : Int := ((m * twoTo e.toNat / twoTo (-e).toNat : Nat) : Int)
    some (if negative then -whole else whole)
  | _ => none

/-- Whether the number is the integer `n`. -/
def equalsInt (x : Binary64) (n : Int) : Bool :=
  match x with
  | .finite negative m e =>
    let scaled : Int := ((m * twoTo e.toNat : Nat) : Int)
    (if negative then -scaled else scaled) == n * (twoTo (-e).toNat : Nat)
  | _ => false

/-- Numeric equality: the two zeros are equal, and the not-a-number equals nothing. -/
def equals (x y : Binary64) : Bool :=
  match x, y with
  | .nan, _ => false
  | _, .nan => false
  | x, y => x == y || (x.isZero && y.isZero)

/-- Numeric equality, but for the not-a-number, which agrees with itself. -/
def agrees (x y : Binary64) : Bool := x == y || x.equals y

end Binary64

end CrossChain
