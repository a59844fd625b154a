import CrossChain.Decimal.Binary64
import CrossChain.Text.Blank
import CrossChain.Text.Digit

/-!
# Numerals

Reading integers and decimals that people or other programs wrote.  Blanks may stand at both ends
and a sign in front; digits may be those of any script, and a single underscore may stand between
two digits.  An integer of more than 4300 digits is refused before anything is computed.
-/

namespace CrossChain

namespace Numeral

/-- The greatest number of digits an integer may be written with. -/
def maxDigits : Nat := 4300

/-- The text with digits of any script in ASCII, blanks as spaces, and a question mark for every
other code point beyond ASCII. -/
def normalize (s : Text) : Text :=
  s.map fun c =>
    if c.isAscii then c
    else if c.isBlank then 32
    else match c.digitValue? with
      | some d => CodePoint.ofChar (Nat.digitChar d)
      | none => 63

/-- The sign in front of a numeral, negative or not, and what follows it. -/
def signed : Text → Bool × Text
  | 43 :: rest => (false, rest)
  | 45 :: rest => (true, rest)
  | rest => (false, rest)

/-- Whether every underscore stands between two digits, given the code point before. -/
def underscoresFit (before : Option CodePoint) : Text → Bool
  | [] => before != some 95
  | c :: rest =>
    (if c = 95 then (before.map CodePoint.isAsciiDigit).getD false
     else before != some 95 || c.isAsciiDigit) && underscoresFit (some c) rest

/-- Why a text is no integer. -/
inductive IntFault
  | malformed
  | tooLong (digits : Nat)
  deriving DecidableEq, Repr

/-- The integer of a sign and a run of ASCII digits. -/
def ofDigits (negative : Bool) (digits : Text) : Except IntFault Int :=
  if maxDigits < digits.length then .error (.tooLong digits.length)
  else
    let n : Int := (Text.digitsValue digits : Nat)
    .ok (if negative then -n else n)

/-- Reads an integer. -/
def readInt (s : Text) : Except IntFault Int := do
  let (negative, rest) := signed ((normalize s).strip CodePoint.isAsciiBlank)
  let run := rest.takeWhile fun c => c.isAsciiDigit || c == 95
  if run.isEmpty || !underscoresFit none run then throw .malformed
  let value ← ofDigits negative (run.filter CodePoint.isAsciiDigit)
  if run.length < rest.length then throw .malformed
  return value

/-- Reads what may follow an `e`: a sign and at least one digit, up to the end. -/
def readExponent? (s : Text) : Option Int :=
  let (negative, digits) := signed s
  if digits.isEmpty || !digits.all CodePoint.isAsciiDigit then none
  else
    let n : Int := (Text.digitsValue digits : Nat)
    some (if negative then -n else n)

/-- Reads a decimal without sign, blanks or underscores: digits with at most one point among or
around them, and an exponent if there is one. -/
def readDecimal? (negative : Bool) (s : Text) : Option Binary64 := do
  let whole := s.takeWhile CodePoint.isAsciiDigit
  let rest := s.drop whole.length
  let (fraction, rest) :=
    match rest with
    | 46 :: more =>
      let fraction := more.takeWhile CodePoint.isAsciiDigit
      (fraction, more.drop fraction.length)
    | rest => (([] : Text), rest)
  if whole.isEmpty && fraction.isEmpty then none
  let exponent ← match rest with
    | [] => some 0
    | c :: more => if c = 101 ∨ c = 69 then readExponent? more else none
  return .ofDecimal negative (Text.digitsValue (whole ++ fraction)) (exponent - fraction.length)

/-- Reads a decimal, an infinity or a not-a-number. -/
def readFloat? (s : Text) : Option Binary64 :=
  let t := (normalize s).strip CodePoint.isAsciiBlank
  if t.contains 95 && !underscoresFit none t then none
  else
    let (negative, rest) := signed (t.filter (· != 95))
    let word := rest.map CodePoint.toAsciiLower
    if word = text "inf" ∨ word = text "infinity" then some (.infinite negative)
    else if word = text "nan" then some .nan
    else readDecimal? negative rest

end Numeral

end CrossChain
