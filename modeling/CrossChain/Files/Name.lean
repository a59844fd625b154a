import CrossChain.Text.Utf8

/-!
# File names

For the file system a name is a list of bytes.  A text gives a name by its UTF-8, but each of the
128 surrogates from `U+DC80` on gives the one byte with the same last two digits; so a name that is
no UTF-8 can be written as a text all the same.  Several texts may give one name: it is shown with
a surrogate only for a byte that is part of no code point.
-/

namespace CrossChain

/-- A name in a directory. -/
abbrev FileName := List UInt8

namespace FileName

/-- The code points that give a byte of their own. -/
def isByte (c : CodePoint) : Bool := 0xDC80 ≤ c.val && c.val ≤ 0xDCFF

/-- The bytes that a code point gives. -/
def bytesOf (c : CodePoint) : List UInt8 :=
  if isByte c then [(c.val - 0xDC00).toUInt8] else Utf8.encodePoint c

/-- The bytes that a text gives. -/
def ofText (s : Text) : FileName := s.flatMap bytesOf

/-- The surrogates of a text that give nothing: where they start, and how they go on. -/
def fault? (s : Text) : Option (Nat × Text) :=
  Utf8.firstFault (fun c => isByte c || !c.isSurrogate) s

/-- Shows the bytes of a name, of which the first `known` belong to the code point shown last. -/
def showFrom (known : Nat) : FileName → Text
  | [] => []
  | b :: rest =>
    if 0 < known then showFrom (known - 1) rest
    else
      match Utf8.first? (b :: rest) with
      | some (c, size) => c :: showFrom (size - 1) rest
      | none => .ofNat (0xDC00 + b.toNat) :: showFrom 0 rest

/-- The text that shows a name. -/
def toText (name : FileName) : Text := showFrom 0 name

end FileName

end CrossChain
