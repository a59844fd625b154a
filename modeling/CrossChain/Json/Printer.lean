import CrossChain.Decimal.Shortest
import CrossChain.Json.Basic

/-!
# Writing JSON

Two layouts of the same notation, both in printable ASCII: `Json.compact` has no space anywhere, and
`Json.indented` gives every member and item a line of its own.  A code point outside printable ASCII
is written as one escape of four hexadecimal digits, or as the two escapes of its surrogate pair.
The layouts are those of values that can be written; where an integer cannot, the lines before it
are written all the same (`Json.started`).
-/

namespace CrossChain

namespace Json

/-- The escape of a 16-bit number. -/
def unicodeEscape (n : Nat) : Text := "\\u" ++ Text.hexOfWidth 4 n

/-- A code point as it stands inside a string. -/
def escape (c : CodePoint) : Text :=
  if c = 34 then "\\\""
  else if c = 92 then "\\\\"
  else if c = 10 then "\\n"
  else if c = 13 then "\\r"
  else if c = 9 then "\\t"
  else if c = 12 then "\\f"
  else if c = 8 then "\\b"
  else if 32 ≤ c.val ∧ c.val ≤ 126 then [c]
  else if c.val < 0x10000 then unicodeEscape c.val
  else
    unicodeEscape (0xD800 + (c.val - 0x10000) / 0x400) ++
      unicodeEscape (0xDC00 + (c.val - 0x10000) % 0x400)

/-- A text as a JSON string. -/
def stringText (s : Text) : Text := 34 :: s.flatMap escape ++ [34]

/-- A binary64 number as JSON writes it, with names of its own for what is not finite. -/
def floatText : Binary64 → Text
  | .nan => "NaN"
  | .infinite negative => if negative then "-Infinity" else "Infinity"
  | x => x.toText

mutual

/-- The value without any space. -/
def compact : Json → Text
  | null => "null"
  | bool b => if b then "true" else "false"
  | int n => Text.ofInt n
  | float x => floatText x
  | str s => stringText s
  | arr xs => 91 :: compactItems xs ++ [93]
  | obj ms => 123 :: compactMembers ms ++ [125]

/-- The items with commas between them. -/
def compactItems : List Json → Text
  | [] => []
  | [x] => compact x
  | x :: xs => compact x ++ 44 :: compactItems xs

/-- The members with commas between them. -/
def compactMembers : List (Text × Json) → Text
  | [] => []
  | [(k, v)] => stringText k ++ 58 :: compact v
  | (k, v) :: ms => stringText k ++ 58 :: compact v ++ 44 :: compactMembers ms

end

/-- A line break and two spaces for each level. -/
def newLine (level : Nat) : Text := 10 :: List.replicate (2 * level) 32

mutual

/-- The value over several lines, its first line standing at the given level. -/
def indentedAt (level : Nat) : Json → Text
  | null => "null"
  | bool b => if b then "true" else "false"
  | int n => Text.ofInt n
  | float x => floatText x
  | str s => stringText s
  | arr [] => "[]"
  | arr (x :: xs) =>
    91 :: newLine (level + 1) ++ indentedAt (level + 1) x ++ indentedItems (level + 1) xs ++
      newLine level ++ [93]
  | obj [] => "{}"
  | obj ((k, v) :: ms) =>
    123 :: newLine (level + 1) ++ stringText k ++ text ": " ++ indentedAt (level + 1) v ++
      indentedMembers (level + 1) ms ++ newLine level ++ [125]

/-- The further items, each after a comma and on its own line. -/
def indentedItems (level : Nat) : List Json → Text
  | [] => []
  | x :: xs => 44 :: newLine level ++ indentedAt level x ++ indentedItems level xs

/-- The further members, each after a comma and on its own line. -/
def indentedMembers (level : Nat) : List (Text × Json) → Text
  | [] => []
  | (k, v) :: ms =>
    44 :: newLine level ++ stringText k ++ text ": " ++ indentedAt level v ++
      indentedMembers level ms

end

/-- The value over several lines, two spaces for each level. -/
def indented (v : Json) : Text := indentedAt 0 v

/-! ### Piece by piece -/

/-- A piece of what is written: some text, and an integer after it if there is one. -/
structure Piece where
  lead : Text
  number : Option Int := none

/-- The text of a piece. -/
def Piece.toText (p : Piece) : Text := p.lead ++ (p.number.map Text.ofInt).getD []

/-- Whether a piece can be written. -/
def Piece.isWritable (p : Piece) : Bool := p.number.all fun n => decide (Short n)

/-- A text and what is written of a value after it; an integer takes the text into its piece. -/
def ledBy (lead : Text) (v : Json) (pieces : List Piece) : List Piece :=
  match v with
  | int n => [⟨lead, some n⟩]
  | _ => ⟨lead, none⟩ :: pieces

mutual

/-- The pieces in which a value over several lines is written. -/
def piecesAt (level : Nat) : Json → List Piece
  | int n => [⟨[], some n⟩]
  | arr (x :: xs) =>
    ledBy (91 :: newLine (level + 1)) x (piecesAt (level + 1) x) ++ itemPieces (level + 1) xs ++
      [⟨newLine level ++ [93], none⟩]
  | obj ((k, v) :: ms) =>
    ⟨123 :: newLine (level + 1) ++ stringText k ++ text ": ", none⟩ :: piecesAt (level + 1) v ++
      memberPieces (level + 1) ms ++ [⟨newLine level ++ [125], none⟩]
  | v => [⟨indentedAt level v, none⟩]

/-- The pieces of the further items. -/
def itemPieces (level : Nat) : List Json → List Piece
  | [] => []
  | x :: xs => ledBy (44 :: newLine level) x (piecesAt level x) ++ itemPieces level xs

/-- The pieces of the further members. -/
def memberPieces (level : Nat) : List (Text × Json) → List Piece
  | [] => []
  | (k, v) :: ms =>
    ⟨44 :: newLine level ++ stringText k ++ text ": ", none⟩ :: piecesAt level v ++
      memberPieces level ms

end

/-- What is written of a value over several lines: all of it, or the pieces before the first that
cannot be written. -/
def started (v : Json) : Text :=
  ((piecesAt 0 v).takeWhile Piece.isWritable).flatMap Piece.toText

end Json

end CrossChain
