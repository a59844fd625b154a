/-!
# Text

A text is a list of Unicode code points.  Surrogates are code points like any other, so a text can
hold a lone one, which a `String` cannot.  This file has the operations on texts that know nothing
about what the text says: finding, cutting, stripping, joining, decimal numerals.
-/

namespace CrossChain

/-- A Unicode code point, surrogates included. -/
abbrev CodePoint := Fin 0x110000

/-- A text is a list of code points. -/
abbrev Text := List CodePoint

/-- There are code points, so numerals name some. -/
instance CodePoint.neZero : @NeZero Nat Zero.ofOfNat0 0x110000 := ⟨Nat.succ_ne_zero _⟩

/-- A character is a code point that is no surrogate. -/
def CodePoint.ofChar (c : Char) : CodePoint :=
  ⟨c.toNat, by
    have h : c.toNat.isValidChar := c.valid
    unfold Nat.isValidChar at h
    omega⟩

/-- The code point with a number; a number too large for one wraps around. -/
def CodePoint.ofNat (n : Nat) : CodePoint := Fin.ofNat 0x110000 n

/-- The text of a string. -/
def text (s : String) : Text := s.toList.map CodePoint.ofChar

instance : Coe String Text := ⟨text⟩

/-- The string of a text, with the replacement character for every surrogate. -/
def Text.toString (s : Text) : String :=
  String.ofList (s.map fun c =>
    if 0xD800 ≤ c.val ∧ c.val ≤ 0xDFFF then '\uFFFD' else Char.ofNat c.val)

namespace CodePoint

/-- One of the ten ASCII digits. -/
def isAsciiDigit (c : CodePoint) : Bool := 48 ≤ c.val && c.val ≤ 57

/-- The value of a hexadecimal digit in either case. -/
def hexValue? (c : CodePoint) : Option Nat :=
  if 48 ≤ c.val ∧ c.val ≤ 57 then some (c.val - 48)
  else if 97 ≤ c.val ∧ c.val ≤ 102 then some (c.val - 87)
  else if 65 ≤ c.val ∧ c.val ≤ 70 then some (c.val - 55)
  else none

/-- The code points below 128. -/
def isAscii (c : CodePoint) : Bool := c.val < 128

/-- The first half of a surrogate pair. -/
def isHighSurrogate (c : CodePoint) : Bool := 0xD800 ≤ c.val && c.val ≤ 0xDBFF

/-- The second half of a surrogate pair. -/
def isLowSurrogate (c : CodePoint) : Bool := 0xDC00 ≤ c.val && c.val ≤ 0xDFFF

/-- The two ranges of surrogates together. -/
def isSurrogate (c : CodePoint) : Bool := 0xD800 ≤ c.val && c.val ≤ 0xDFFF

/-- The code point that the two halves of a surrogate pair stand for. -/
def ofPair (high low : CodePoint) : CodePoint :=
  ofNat (0x10000 + (high.val - 0xD800) * 0x400 + (low.val - 0xDC00))

/-- The lower-case form of an ASCII letter; any other code point is left alone. -/
def toAsciiLower (c : CodePoint) : CodePoint :=
  if h : 65 ≤ c.val ∧ c.val ≤ 90 then ⟨c.val + 32, by omega⟩ else c

/-- The upper-case form of an ASCII letter; any other code point is left alone. -/
def toAsciiUpper (c : CodePoint) : CodePoint :=
  if h : 97 ≤ c.val ∧ c.val ≤ 122 then ⟨c.val - 32, by omega⟩ else c

end CodePoint

namespace Text

/-! ### Finding -/

/-- Whether `pat` stands somewhere in the text. -/
def has (pat : Text) : Text → Bool
  | [] => pat.isEmpty
  | c :: rest => pat.isPrefixOf (c :: rest) || has pat rest

/-- What stands before the first `sep`, and what stands after it; the second part is empty when
there is no `sep`. -/
def cutAt (sep : CodePoint) (s : Text) : Text × Text :=
  (s.takeWhile (· != sep), (s.dropWhile (· != sep)).drop 1)

/-- What stands before the first `sep`, or everything. -/
def before (sep : CodePoint) (s : Text) : Text := s.takeWhile (· != sep)

/-- What stands after the last `sep`, or everything. -/
def afterLast (sep : CodePoint) (s : Text) : Text := (s.reverse.takeWhile (· != sep)).reverse

/-- The text without any occurrence of `pat`, found from the left without overlap. -/
def without (pat : Text) (s : Text) : Text :=
  match s with
  | [] => []
  | c :: rest =>
    if !pat.isEmpty && pat.isPrefixOf (c :: rest) then without pat (rest.drop (pat.length - 1))
    else c :: without pat rest
termination_by s.length
decreasing_by
  · simp only [List.length_cons, List.length_drop]
    omega
  · simp

/-- The pieces between the occurrences of `sep`. -/
def splitAt (sep : CodePoint) : Text → List Text
  | [] => [[]]
  | c :: rest =>
    if c = sep then [] :: splitAt sep rest
    else match splitAt sep rest with
      | [] => [[c]]
      | piece :: pieces => (c :: piece) :: pieces

/-! ### Stripping and joining -/

/-- The text without the leading code points that satisfy `p`. -/
def stripLeft (p : CodePoint → Bool) (s : Text) : Text := s.dropWhile p

/-- The text without the trailing code points that satisfy `p`. -/
def stripRight (p : CodePoint → Bool) (s : Text) : Text := (s.reverse.dropWhile p).reverse

/-- The text without the leading and trailing code points that satisfy `p`. -/
def strip (p : CodePoint → Bool) (s : Text) : Text := stripRight p (stripLeft p s)

/-- The pieces with `sep` between neighbours. -/
def join (sep : Text) : List Text → Text
  | [] => []
  | [s] => s
  | s :: rest => s ++ sep ++ join sep rest

/-- The text filled up with spaces on the right to at least `width` code points. -/
def padTo (width : Nat) (s : Text) : Text := s ++ List.replicate (width - s.length) 32

/-- The code points in lexicographic order, by number. -/
def le : Text → Text → Bool
  | [], _ => true
  | _ :: _, [] => false
  | a :: s, b :: t => if a = b then le s t else a.val < b.val

/-! ### Numerals -/

/-- The decimal numeral of a natural number. -/
def ofNat (n : Nat) : Text := (Nat.toDigits 10 n).map CodePoint.ofChar

/-- The decimal numeral of an integer, with a minus sign when it is negative. -/
def ofInt : Int → Text
  | .ofNat n => ofNat n
  | .negSucc n => 45 :: ofNat (n + 1)

/-- The number that a list of ASCII digits spells. -/
def digitsValue (s : Text) : Nat := s.foldl (fun n c => 10 * n + (c.val - 48)) 0

/-- The hexadecimal digit of a number below 16, in lower case. -/
def hexDigit (n : Nat) : CodePoint :=
  CodePoint.ofChar (Nat.digitChar (n % 16))

/-- The last `width` hexadecimal digits of a number, in lower case. -/
def hexOfWidth : Nat → Nat → Text
  | 0, _ => []
  | width + 1, n => hexOfWidth width (n / 16) ++ [hexDigit n]

/-- Two lower-case hexadecimal digits for each byte. -/
def ofBytes (bytes : List UInt8) : Text := bytes.flatMap fun b => hexOfWidth 2 b.toNat

end Text

end CrossChain
