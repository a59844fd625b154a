import CrossChain.Text.Basic

/-!
# UTF-8

A code point that is no surrogate is written in one to four bytes.  Reading is strict: no byte
sequence longer than needed, no surrogate, nothing above the last code point.  A fault names the
bytes that made no sense together, counted up to the one that could not follow.
-/

namespace CrossChain

/-- Why bytes are no UTF-8. -/
inductive Utf8Fault.Reason
  | invalidStart
  | invalidContinuation
  | unexpectedEnd
  deriving DecidableEq, Repr

/-- A run of bytes that is no UTF-8: where it starts, how many bytes it has, the first of them. -/
structure Utf8Fault where
  start : Nat
  size : Nat
  byte : UInt8
  reason : Utf8Fault.Reason
  deriving DecidableEq, Repr

namespace Utf8Fault

/-- The wording of a reason. -/
def Reason.message : Reason → Text
  | invalidStart => "invalid start byte"
  | invalidContinuation => "invalid continuation byte"
  | unexpectedEnd => "unexpected end of data"

/-- The wording of a fault: one byte is named by value, several by position. -/
def message (f : Utf8Fault) : Text :=
  if f.size = 1 then
    "'utf-8' codec can't decode byte 0x" ++ Text.hexOfWidth 2 f.byte.toNat ++ " in position " ++
      Text.ofNat f.start ++ ": " ++ f.reason.message
  else
    "'utf-8' codec can't decode bytes in position " ++ Text.ofNat f.start ++ "-" ++
      Text.ofNat (f.start + f.size - 1) ++ ": " ++ f.reason.message

end Utf8Fault

namespace Utf8

/-! ### Writing -/

/-- The bytes of a code point; a surrogate would get the three bytes of its number. -/
def encodePoint (c : CodePoint) : List UInt8 :=
  let n := c.val
  if n < 0x80 then [n.toUInt8]
  else if n < 0x800 then [(0xC0 + n / 0x40).toUInt8, (0x80 + n % 0x40).toUInt8]
  else if n < 0x10000 then
    [(0xE0 + n / 0x1000).toUInt8, (0x80 + n / 0x40 % 0x40).toUInt8, (0x80 + n % 0x40).toUInt8]
  else
    [(0xF0 + n / 0x40000).toUInt8, (0x80 + n / 0x1000 % 0x40).toUInt8,
      (0x80 + n / 0x40 % 0x40).toUInt8, (0x80 + n % 0x40).toUInt8]

/-- The surrogates in a row from the first code point on that is not allowed, with the position of
that one. -/
def firstFault (isAllowed : CodePoint → Bool) (s : Text) : Option (Nat × Text) :=
  if s.all isAllowed then none
  else
    let start := (s.takeWhile isAllowed).length
    some (start, (s.drop start).takeWhile CodePoint.isSurrogate)

/-- The bytes of a text; a text with a surrogate has none. -/
def encode (s : Text) : Except (Nat × Text) (List UInt8) :=
  match firstFault (fun c => !c.isSurrogate) s with
  | some fault => .error fault
  | none => .ok (s.flatMap encodePoint)

/-- The mark that some writers put in front of a text. -/
def mark : List UInt8 := [0xEF, 0xBB, 0xBF]

/-- The bytes without a mark in front of them. -/
def withoutMark (bytes : List UInt8) : List UInt8 :=
  if mark.isPrefixOf bytes then bytes.drop mark.length else bytes

/-! ### Reading -/

/-- The bytes that may come second after a lead byte of three or four bytes; any other lead byte
allows every continuation byte. -/
def secondRange (lead : UInt8) : Nat × Nat :=
  if lead = 0xE0 then (0xA0, 0xBF)
  else if lead = 0xED then (0x80, 0x9F)
  else if lead = 0xF0 then (0x90, 0xBF)
  else if lead = 0xF4 then (0x80, 0x8F)
  else (0x80, 0xBF)

/-- How many bytes follow a lead byte. -/
def following? (lead : UInt8) : Option Nat :=
  let n := lead.toNat
  if n < 0x80 then some 0
  else if n < 0xC2 then none
  else if n < 0xE0 then some 1
  else if n < 0xF0 then some 2
  else if n < 0xF5 then some 3
  else none

/-- The bits of its code point that a lead byte carries. -/
def leadBits (lead : UInt8) : Nat :=
  let n := lead.toNat
  if n < 0x80 then n else if n < 0xE0 then n % 0x20 else if n < 0xF0 then n % 0x10 else n % 0x08

/-- Reads bytes from position `pos` on.  While a code point is being read, `missing` bytes are
still to come, `seen` are read, `low` and `high` bound the next one, and `value` holds the bits. -/
def decodeFrom (pos : Nat) (lead : UInt8) (seen missing low high value : Nat) :
    List UInt8 → Except Utf8Fault Text
  | [] =>
    if missing = 0 then .ok []
    else .error ⟨pos - seen, seen, lead, .unexpectedEnd⟩
  | b :: rest =>
    if missing = 0 then
      match following? b with
      | none => .error ⟨pos, 1, b, .invalidStart⟩
      | some 0 => (decodeFrom (pos + 1) b 0 0 0 0 0 rest).map (CodePoint.ofNat b.toNat :: ·)
      | some (k + 1) =>
        let range := secondRange b
        decodeFrom (pos + 1) b 1 (k + 1) range.1 range.2 (leadBits b) rest
    else if low ≤ b.toNat ∧ b.toNat ≤ high then
      let value := value * 0x40 + b.toNat % 0x40
      if missing = 1 then (decodeFrom (pos + 1) b 0 0 0 0 0 rest).map (CodePoint.ofNat value :: ·)
      else decodeFrom (pos + 1) lead (seen + 1) (missing - 1) 0x80 0xBF value rest
    else .error ⟨pos - seen, seen, lead, .invalidContinuation⟩

/-- The text that the bytes spell. -/
def decode (bytes : List UInt8) : Except Utf8Fault Text := decodeFrom 0 0 0 0 0 0 0 bytes

/-- The code point that the first bytes spell, and how many bytes it takes. -/
def first? : List UInt8 → Option (CodePoint × Nat)
  | [] => none
  | lead :: rest => do
    let more ← following? lead
    match decode (lead :: rest.take more) with
    | .ok [c] => some (c, more + 1)
    | _ => none

end Utf8

end CrossChain
