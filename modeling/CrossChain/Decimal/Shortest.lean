import CrossChain.Decimal.Binary64
import CrossChain.Text.Basic

/-!
# Shortest decimals

The shortest decimal that reads back as a given binary64 number.  For one digit, two digits and so
on up to seventeen, the two neighbours of the number on the grid of decimals with so many digits are
tried; the first grid with a neighbour inside the rounding interval wins, of two such neighbours the
nearer one, and of two equally near ones the even one.

The layout is positional from `0.0001` up to below `10 ^ 16`, always with a digit after the point,
and otherwise one digit before the point with an exponent of at least two digits and its sign.
-/

namespace CrossChain

namespace Binary64

/-- The numbers `a * 2 ^ e` and `b * 10 ^ p` brought to a common scale. -/
def common (a : Nat) (e : Int) (b : Nat) (p : Int) : Nat × Nat :=
  (a * twoTo e.toNat * tenTo (-p).toNat, b * tenTo p.toNat * twoTo (-e).toNat)

/-- Whether `b * 10 ^ p` reads back as `m * 2 ^ e`: it lies between the midpoints to the two
neighbours, the midpoints themselves included when the mantissa is even. -/
def readsBack (m : Nat) (e : Int) (b : Nat) (p : Int) : Bool :=
  let narrow := m = twoTo 52 ∧ minExponent < e
  let (low, x) := common (if narrow then 4 * m - 1 else 4 * m - 2) (e - 2) b p
  let (high, y) := common (4 * m + 2) (e - 2) b p
  if m % 2 = 0 then low ≤ x && y ≤ high else low < x && y < high

/-- The number `k` with `10 ^ (k - 1) ≤ m * 2 ^ e < 10 ^ k`, for positive `m`. -/
def decimalMagnitude (m : Nat) (e : Int) : Int :=
  let num := m * twoTo e.toNat
  let den := twoTo (-e).toNat
  if den ≤ num then digitCount (num / den)
  else
    let q := (den + num - 1) / num
    1 - (digitCount (q - 1) : Int)

/-- The decimal `digits * 10 ^ exponent` on the grid of `count` digits that reads back. -/
def onGrid? (m : Nat) (e : Int) (magnitude : Int) (count : Nat) : Option (Nat × Int) :=
  let p := magnitude - count
  let below := (m * twoTo e.toNat * tenTo (-p).toNat) / (tenTo p.toNat * twoTo (-e).toNat)
  let above := below + 1
  match readsBack m e below p, readsBack m e above p with
  | true, true =>
    let (x, low) := common m e below p
    let (_, high) := common m e above p
    if x - low < high - x then some (below, p)
    else if high - x < x - low then some (above, p)
    else some (if below % 2 = 0 then below else above, p)
  | true, false => some (below, p)
  | false, true => some (above, p)
  | false, false => none

/-- The shortest decimal of a positive number. -/
def shortest (m : Nat) (e : Int) : Nat × Int :=
  let magnitude := decimalMagnitude m e
  ((List.range 17).findSome? fun i => onGrid? m e magnitude (i + 1)).getD (0, 0)

/-- Digits and the position of the point before the first of them, laid out. -/
def layout (digits : Text) (point : Int) : Text :=
  if -4 < point ∧ point ≤ 16 then
    if point ≤ 0 then text "0." ++ List.replicate (-point).toNat 48 ++ digits
    else if point < digits.length then
      digits.take point.toNat ++ text "." ++ digits.drop point.toNat
    else digits ++ List.replicate (point.toNat - digits.length) 48 ++ text ".0"
  else
    let exponent := point - 1
    let size := Text.ofNat exponent.natAbs
    digits.take 1 ++ (if digits.length = 1 then [] else text "." ++ digits.drop 1) ++ text "e" ++
      (if exponent < 0 then text "-" else text "+") ++ List.replicate (2 - size.length) 48 ++ size

/-- The text of a number without its sign. -/
def magnitudeText (m : Nat) (e : Int) : Text :=
  if m = 0 then "0.0"
  else
    let (digits, p) := shortest m e
    let all := Text.ofNat digits
    let kept := Text.stripRight (· == 48) all
    layout kept (p + all.length)

/-- The text of a number. -/
def toText : Binary64 → Text
  | .nan => "nan"
  | .infinite negative => if negative then "-inf" else "inf"
  | .finite negative m e => if negative then text "-" ++ magnitudeText m e else magnitudeText m e

end Binary64

end CrossChain
