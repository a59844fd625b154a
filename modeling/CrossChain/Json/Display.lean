import CrossChain.Decimal.Shortest
import CrossChain.Json.Basic
import CrossChain.Text.Quoted

/-!
# Values in messages

How a value stands in a message for people: strings in quotes unless they stand alone, items and
members with a comma and a space between them, and words with a capital for null and the booleans.
-/

namespace CrossChain

namespace Json

mutual

/-- The value with its strings in quotes. -/
def quoted : Json → Text
  | null => "None"
  | bool b => if b then "True" else "False"
  | int n => Text.ofInt n
  | float x => x.toText
  | str s => s.quoted
  | arr xs => "[" ++ quotedItems xs ++ "]"
  | obj ms => 123 :: quotedMembers ms ++ [125]

/-- The items with a comma and a space between them. -/
def quotedItems : List Json → Text
  | [] => []
  | [x] => quoted x
  | x :: xs => quoted x ++ ", " ++ quotedItems xs

/-- The members with a comma and a space between them. -/
def quotedMembers : List (Text × Json) → Text
  | [] => []
  | [(k, v)] => k.quoted ++ ": " ++ quoted v
  | (k, v) :: ms => k.quoted ++ ": " ++ quoted v ++ ", " ++ quotedMembers ms

end

/-- The value as a message shows it: a string as it is, anything else as inside a list. -/
def display : Json → Text
  | str s => s
  | v => v.quoted

/-- The names, each in quotes, as a list. -/
def quotedNames (names : List Text) : Text := quoted (.arr (names.map .str))

/-- What kind of value it is, in one word. -/
def kindName : Json → Text
  | null => "NoneType"
  | bool _ => "bool"
  | int _ => "int"
  | float _ => "float"
  | str _ => "str"
  | arr _ => "list"
  | obj _ => "dict"

end Json

end CrossChain
