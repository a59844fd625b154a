import CrossChain.Text.Basic

/-!
# Base64

Three bytes are written as four characters, and one or two bytes at the end are filled up with
equals signs.  Reading is lenient: characters outside the alphabet are skipped, an equals sign
counts only where it completes a group, and everything after a completed group with equals signs is
left unread.
-/

namespace CrossChain

namespace Base64

/-! ### Writing -/

/-- The 64 characters. -/
def alphabet : Text := "ABCDEFGHIJKLMNOPQRSTUVWXYZabcdefghijklmnopqrstuvwxyz0123456789+/"

/-- The character of a number below 64. -/
def digit (n : Nat) : CodePoint := alphabet.getD (n % 64) 61

/-- The characters of the bytes. -/
def encode : List UInt8 → Text
  | [] => []
  | [a] => [digit (a.toNat / 4), digit (a.toNat % 4 * 16), 61, 61]
  | [a, b] =>
    [digit (a.toNat / 4), digit (a.toNat % 4 * 16 + b.toNat / 16), digit (b.toNat % 16 * 4), 61]
  | a :: b :: c :: rest =>
    digit (a.toNat / 4) :: digit (a.toNat % 4 * 16 + b.toNat / 16) ::
      digit (b.toNat % 16 * 4 + c.toNat / 64) :: digit (c.toNat % 64) :: encode rest

/-! ### Reading -/

/-- The number of a character. -/
def value? (c : CodePoint) : Option Nat := alphabet.idxOf? c

/-- Why characters are no base64. -/
inductive Fault
  | padding
  | count (characters : Nat)
  deriving DecidableEq, Repr

/-- The wording of a fault. -/
def Fault.message : Fault → Text
  | padding => "Incorrect padding"
  | count n =>
    "Invalid base64-encoded string: number of data characters (" ++ Text.ofNat n ++
      ") cannot be 1 more than a multiple of 4"

/-- A group of four characters that is being read: nothing yet, or the bits left over from its one,
two or three characters.  `pads` counts the equals signs seen since the last of them. -/
inductive Group
  | empty
  | one (bits : Nat)
  | two (bits pads : Nat)
  | three (bits : Nat)
  deriving DecidableEq, Repr

/-- Reads characters, with `done` bytes read before and a group under way. -/
def decodeFrom (done : Nat) (group : Group) : Text → Except Fault (List UInt8)
  | [] =>
    match group with
    | .empty => .ok []
    | .one _ => .error (.count (done / 3 * 4 + 1))
    | .two _ _ => .error .padding
    | .three _ => .error .padding
  | c :: rest =>
    if c = 61 then
      match group with
      | .two bits pads => if 0 < pads then .ok [] else decodeFrom done (.two bits (pads + 1)) rest
      | .three _ => .ok []
      | group => decodeFrom done group rest
    else
      match value? c with
      | none => decodeFrom done group rest
      | some v =>
        match group with
        | .empty => decodeFrom done (.one v) rest
        | .one bits =>
          (decodeFrom (done + 1) (.two (v % 16) 0) rest).map ((bits * 4 + v / 16).toUInt8 :: ·)
        | .two bits _ =>
          (decodeFrom (done + 1) (.three (v % 4)) rest).map ((bits * 16 + v / 4).toUInt8 :: ·)
        | .three bits =>
          (decodeFrom (done + 1) .empty rest).map ((bits * 64 + v).toUInt8 :: ·)

/-- The bytes that the characters spell. -/
def decode (s : Text) : Except Fault (List UInt8) := decodeFrom 0 .empty s

end Base64

end CrossChain
