import CrossChain.Text.Basic

/-!
# Wide encodings

A text may be written in units of two or of four bytes, the high byte of a unit first or last.  In
units of two bytes a code point beyond `U+FFFF` takes a pair of surrogates.  Reading is strict: no
unit is cut short, no surrogate stands for itself, and no number is too large for a code point.
-/

namespace CrossChain

/-- Which byte of a unit comes first. -/
inductive ByteOrder
  | highFirst
  | lowFirst
  deriving DecidableEq, Repr

/-- The number of a unit of two bytes. -/
def ByteOrder.number₂ : ByteOrder → UInt8 → UInt8 → Nat
  | highFirst, a, b => a.toNat * 0x100 + b.toNat
  | lowFirst, a, b => b.toNat * 0x100 + a.toNat

/-- The number of a unit of four bytes. -/
def ByteOrder.number₄ : ByteOrder → UInt8 → UInt8 → UInt8 → UInt8 → Nat
  | highFirst, a, b, c, d => highFirst.number₂ a b * 0x10000 + highFirst.number₂ c d
  | lowFirst, a, b, c, d => lowFirst.number₂ c d * 0x10000 + lowFirst.number₂ a b

/-- An encoding in units of two or four bytes. -/
inductive WideEncoding
  | utf16 (order : ByteOrder)
  | utf32 (order : ByteOrder)
  deriving DecidableEq, Repr

namespace WideEncoding

/-- The numbers of units of two bytes; a cut unit has none. -/
def units₂? (order : ByteOrder) : List UInt8 → Option (List Nat)
  | [] => some []
  | [_] => none
  | a :: b :: rest => (units₂? order rest).map (order.number₂ a b :: ·)

/-- The numbers of units of four bytes; a cut unit has none. -/
def units₄? (order : ByteOrder) : List UInt8 → Option (List Nat)
  | [] => some []
  | a :: b :: c :: d :: rest => (units₄? order rest).map (order.number₄ a b c d :: ·)
  | _ => none

/-- The text of code points among which surrogates come only in pairs; `high?` is the first half of
a pair that is still open. -/
def joinPairs? (high? : Option CodePoint) : Text → Option Text
  | [] => if high?.isNone then some [] else none
  | c :: rest =>
    match high? with
    | some high =>
      if c.isLowSurrogate then (joinPairs? none rest).map (CodePoint.ofPair high c :: ·) else none
    | none =>
      if c.isHighSurrogate then joinPairs? (some c) rest
      else if c.isLowSurrogate then none
      else (joinPairs? none rest).map (c :: ·)

/-- The code point of a number that is neither a surrogate nor too large. -/
def scalar? (n : Nat) : Option CodePoint :=
  if n < 0x110000 && !(CodePoint.ofNat n).isSurrogate then some (.ofNat n) else none

/-- The text that the bytes spell. -/
def decode? : WideEncoding → List UInt8 → Option Text
  | utf16 order, bytes => do joinPairs? none ((← units₂? order bytes).map CodePoint.ofNat)
  | utf32 order, bytes => do (← units₄? order bytes).mapM scalar?

end WideEncoding

end CrossChain
