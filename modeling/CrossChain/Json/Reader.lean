import CrossChain.Decimal.Numeral
import CrossChain.Json.Basic

/-!
# Reading JSON

A reader for one JSON value with blanks around it.  Beyond the standard it takes `NaN`, `Infinity`
and `-Infinity`, and it keeps lone surrogates that are written as escapes.  Numbers with a point or
an exponent are binary64, all others are integers of any size up to the digit limit.

Every function takes the rest of the text and returns what it read with what is left.  While
reading, a place is named by how many code points are left from there on; `Json.read` turns that
into a position, a line and a column.
-/

namespace CrossChain

namespace Json

/-- What is wrong where a value was expected to go on. -/
inductive ReadFault.Reason
  | byteOrderMark
  | value
  | propertyName
  | colon
  | comma
  | unterminated
  | control
  | escape
  | unicodeEscape
  | extraData
  deriving DecidableEq, Repr

/-- The wording of a reason. -/
def ReadFault.Reason.message : ReadFault.Reason → Text
  | byteOrderMark => "Unexpected UTF-8 BOM (decode using utf-8-sig)"
  | value => "Expecting value"
  | propertyName => "Expecting property name enclosed in double quotes"
  | colon => "Expecting ':' delimiter"
  | comma => "Expecting ',' delimiter"
  | unterminated => "Unterminated string starting at"
  | control => "Invalid control character at"
  | escape => "Invalid \\escape"
  | unicodeEscape => "Invalid \\uXXXX escape"
  | extraData => "Extra data"

/-- Why a text is no JSON: the reason, and where it stands by position from zero and by line and
column from one. -/
structure ReadFault where
  reason : ReadFault.Reason
  position : Nat
  line : Nat
  column : Nat
  deriving DecidableEq, Repr

/-- The wording of a fault. -/
def ReadFault.message (f : ReadFault) : Text :=
  f.reason.message ++ ": line " ++ Text.ofNat f.line ++ " column " ++ Text.ofNat f.column ++
    " (char " ++ Text.ofNat f.position ++ ")"

/-- What has items or members. -/
inductive Container
  | object
  | array
  deriving DecidableEq, Repr

/-- The name of a kind of container. -/
def Container.name : Container → Text
  | object => "object"
  | array => "array"

/-- What stops the reader: a fault with the number of code points left, an integer with too many
digits, or a container inside too many others. -/
inductive Stop
  | fault (reason : ReadFault.Reason) (left : Nat)
  | tooLong (digits : Nat)
  | tooDeep (container : Container)
  deriving DecidableEq, Repr

/-! ### Tokens -/

/-- The four blanks of JSON. -/
def isSpace (c : CodePoint) : Bool := c == 32 || c == 9 || c == 10 || c == 13

theorem isSpace_iff {c : CodePoint} : isSpace c = true ↔ c = 32 ∨ c = 9 ∨ c = 10 ∨ c = 13 := by
  simp only [isSpace, Bool.or_eq_true, beq_iff_eq, or_assoc]

theorem isAsciiBlank_of_isSpace {c : CodePoint} (h : isSpace c = true) :
    c.isAsciiBlank = true := by
  rcases isSpace_iff.1 h with rfl | rfl | rfl | rfl <;> rfl

/-- The text from its first code point on that is no blank. -/
def skipSpace (s : Text) : Text := s.dropWhile isSpace

/-- The number that four hexadecimal digits spell. -/
def hex4? (a b c d : CodePoint) : Option Nat := do
  return (((← a.hexValue?) * 16 + (← b.hexValue?)) * 16 + (← c.hexValue?)) * 16 + (← d.hexValue?)

/-- The code point that a short escape stands for. -/
def shortEscape? (c : CodePoint) : Option CodePoint :=
  if c = 34 ∨ c = 92 ∨ c = 47 then some c
  else if c = 98 then some 8
  else if c = 102 then some 12
  else if c = 110 then some 10
  else if c = 114 then some 13
  else if c = 116 then some 9
  else none

/-- A code point in front of a text that was read. -/
def consPoint (c : CodePoint) (r : Except Stop (Text × Text)) : Except Stop (Text × Text) :=
  r.map fun p => (c :: p.1, p.2)

/-- The high half of a surrogate pair in front of a text that was read from `source`.  It joins the
low half that comes first there, if that was written as an escape too. -/
def consHigh (high : CodePoint) (source : Text) (r : Except Stop (Text × Text)) :
    Except Stop (Text × Text) :=
  r.map fun p =>
    match source, p.1 with
    | 92 :: 117 :: _, low :: t =>
      if low.isLowSurrogate then (.ofPair high low :: t, p.2) else (high :: p.1, p.2)
    | _, t => (high :: t, p.2)

/-- Reads the rest of a string, up to and with its closing quote.  `start` is what was left at the
opening quote. -/
def readString (start : Nat) : Text → Except Stop (Text × Text)
  | [] => .error (.fault .unterminated start)
  | c :: rest =>
    if c = 34 then .ok ([], rest)
    else if c = 92 then
      match rest with
      | [] => .error (.fault .unterminated start)
      | e :: more =>
        if e = 117 then
          match more with
          | a :: b :: c₁ :: d :: next :: tail =>
            match hex4? a b c₁ d with
            | none => .error (.fault .unicodeEscape (more.length + 1))
            | some n =>
              let p := CodePoint.ofNat n
              if p.isHighSurrogate then consHigh p (next :: tail) (readString start (next :: tail))
              else consPoint p (readString start (next :: tail))
          | _ => .error (.fault .unicodeEscape (more.length + 1))
        else
          match shortEscape? e with
          | some p => consPoint p (readString start more)
          | none => .error (.fault .escape (more.length + 2))
    else if c.val < 32 then .error (.fault .control (rest.length + 1))
    else consPoint c (readString start rest)

/-- The digits of the integer part: a zero alone, or digits that do not start with one. -/
def integerDigits (s : Text) : Text :=
  match s with
  | 48 :: _ => [48]
  | s => s.takeWhile CodePoint.isAsciiDigit

/-- The digits after a point, when a point with a digit comes next. -/
def fractionDigits (s : Text) : Text :=
  match s with
  | 46 :: rest => rest.takeWhile CodePoint.isAsciiDigit
  | _ => []

/-- The exponent and the length of its spelling, when one comes next. -/
def exponentPart (s : Text) : Option (Int × Nat) :=
  match s with
  | c :: rest =>
    if c = 101 ∨ c = 69 then
      let (negative, tail) := Numeral.signed rest
      let digits := tail.takeWhile CodePoint.isAsciiDigit
      if digits.isEmpty then none
      else
        let n : Int := (Text.digitsValue digits : Nat)
        some (if negative then -n else n, 1 + (rest.length - tail.length) + digits.length)
    else none
  | [] => none

/-- Reads a number. -/
def readNumber (s : Text) : Except Stop (Json × Text) :=
  let (negative, rest) :=
    match s with
    | 45 :: rest => (true, rest)
    | rest => (false, rest)
  let whole := integerDigits rest
  if whole.isEmpty then .error (.fault .value s.length)
  else
    let afterWhole := rest.drop whole.length
    let fraction := fractionDigits afterWhole
    let afterFraction :=
      if fraction.isEmpty then afterWhole else afterWhole.drop (1 + fraction.length)
    match exponentPart afterFraction with
    | some (exponent, size) =>
      .ok (.float (.ofDecimal negative (Text.digitsValue (whole ++ fraction))
        (exponent - fraction.length)), afterFraction.drop size)
    | none =>
      if fraction.isEmpty then
        match Numeral.ofDigits negative whole with
        | .ok n => .ok (.int n, afterWhole)
        | .error (.tooLong digits) => .error (.tooLong digits)
        | .error .malformed => .error (.fault .value s.length)
      else
        .ok (.float (.ofDecimal negative (Text.digitsValue (whole ++ fraction))
          (-(fraction.length : Int))), afterFraction)

/-- The words that stand for values. -/
def words : List (Text × Json) :=
  [("null", .null), ("true", .bool true), ("false", .bool false), ("NaN", .float .nan),
    ("Infinity", .float (.infinite false)), ("-Infinity", .float (.infinite true))]

/-- Reads a word or a number. -/
def readAtom (s : Text) : Except Stop (Json × Text) :=
  match words.find? fun w => w.1.isPrefixOf s with
  | some (word, value) => .ok (value, s.drop word.length)
  | none => readNumber s

/-! ### Values -/

mutual

/-- Reads a value that starts at once, with `room` for containers inside each other; `fuel` bounds
the number of calls within calls. -/
def readValue : Nat → Nat → Text → Except Stop (Json × Text)
  | 0, _, s => .error (.fault .value s.length)
  | fuel + 1, room, s =>
    match s with
    | [] => .error (.fault .value 0)
    | c :: rest =>
      if c = 34 then do
        let (t, rest) ← readString s.length rest
        return (.str t, rest)
      else if c = 123 then
        if room = 0 then .error (.tooDeep .object)
        else
          match skipSpace rest with
          | 125 :: tail => .ok (.obj [], tail)
          | tail => do
            let (members, rest) ← readMembers fuel (room - 1) tail
            return (ofPairs members, rest)
      else if c = 91 then
        if room = 0 then .error (.tooDeep .array)
        else
          match skipSpace rest with
          | 93 :: tail => .ok (.arr [], tail)
          | tail => do
            let (items, rest) ← readItems fuel (room - 1) tail
            return (.arr items, rest)
      else readAtom s

/-- Reads the items of a list from its next item on, with the closing bracket. -/
def readItems : Nat → Nat → Text → Except Stop (List Json × Text)
  | 0, _, s => .error (.fault .value s.length)
  | fuel + 1, room, s => do
    let (item, rest) ← readValue fuel room s
    match skipSpace rest with
    | 93 :: tail => return ([item], tail)
    | 44 :: tail =>
      let (items, rest) ← readItems fuel room (skipSpace tail)
      return (item :: items, rest)
    | tail => throw (.fault .comma tail.length)

/-- Reads the members of an object from its next member on, with the closing brace. -/
def readMembers : Nat → Nat → Text → Except Stop (List (Text × Json) × Text)
  | 0, _, s => .error (.fault .value s.length)
  | fuel + 1, room, s =>
    match s with
    | 34 :: rest => do
      let (name, rest) ← readString s.length rest
      match skipSpace rest with
      | 58 :: tail =>
        let (value, rest) ← readValue fuel room (skipSpace tail)
        match skipSpace rest with
        | 125 :: tail => return ([(name, value)], tail)
        | 44 :: tail =>
          let (members, rest) ← readMembers fuel room (skipSpace tail)
          return ((name, value) :: members, rest)
        | tail => throw (.fault .comma tail.length)
      | tail => throw (.fault .colon tail.length)
    | s => .error (.fault .propertyName s.length)

end

/-! ### Limits -/

/-- What the stack of a system leaves for reading: how many containers may stand inside each other.
One may stand in another in any case. -/
class Limits where
  depth : Nat
  two_le_depth : 2 ≤ depth

/-- The limits of a system with the usual settings. -/
instance (priority := low) usualLimits : Limits := ⟨990, by decide⟩

variable [Limits]

/-- How many containers may stand inside each other. -/
def maxDepth : Nat := Limits.depth

theorem two_le_maxDepth : 2 ≤ maxDepth := Limits.two_le_depth

/-! ### Texts -/

/-- Reads a whole text: a value with blanks around it and nothing else. -/
def readWhole (s : Text) : Except Stop Json :=
  if s.head? = some 0xFEFF then .error (.fault .byteOrderMark s.length)
  else do
    let (value, rest) ← readValue (2 * s.length + 2) maxDepth (skipSpace s)
    match skipSpace rest with
    | [] => return value
    | tail => throw (.fault .extraData tail.length)

/-- Why a text cannot be read as a value. -/
inductive ReadError
  | fault (f : ReadFault)
  | tooLong (digits : Nat)
  | tooDeep (container : Container)
  deriving DecidableEq, Repr

/-- The fault at the place where `left` code points of the text are left. -/
def ReadFault.at (s : Text) (reason : ReadFault.Reason) (left : Nat) : ReadFault :=
  let before := s.take (s.length - left)
  ⟨reason, before.length, before.count 10 + 1, (Text.afterLast 10 before).length + 1⟩

/-- Reads the value that a text spells. -/
def read (s : Text) : Except ReadError Json :=
  (readWhole s).mapError fun
    | .fault reason left => .fault (ReadFault.at s reason left)
    | .tooLong digits => .tooLong digits
    | .tooDeep container => .tooDeep container

end Json

end CrossChain
