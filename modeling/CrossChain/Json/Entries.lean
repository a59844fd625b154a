import CrossChain.Json.Keyed
import CrossChain.Json.Printer

/-!
# Tables from values

An object is a table of its members.  A list is one too if each of its items is a pair of a key and
a value, and so is whatever can be read as such a list: a string is a list of its letters, and an
object is a list of its names.  Keys that agree are one key.  In a table every key is a text: that
of a string, or the JSON of any other atom.
-/

namespace CrossChain

namespace Json

/-- The parts of a value as a list. -/
def parts : Json → Except Failure (List Json)
  | arr xs => .ok xs
  | str s => .ok (s.map fun c => .str [c])
  | obj ms => .ok (ms.map fun p => .str p.1)
  | _ => .error .wrongKind

/-- The text of a key. -/
def keyText : Json → Text
  | str s => s
  | v => v.compact

/-- The key and the value that an item of a list is; `position` is what to blame. -/
def toEntry (position : Nat) (item : Json) : Except Failure (Json × Json) := do
  match ← item.parts with
  | [key, value] => return (← key.asKey, value)
  | parts => throw (.value (.notAPair position parts.length))

/-- The entries with those of a list whose first item stands at the given position. -/
def insertItems (entries : Keyed Json) (position : Nat) : List Json →
    Except Failure (Keyed Json)
  | [] => .ok entries
  | item :: rest => do
    let (key, value) ← item.toEntry position
    insertItems (Keyed.insert key value entries) (position + 1) rest

/-- The table that a value is. -/
def toTable : Json → Except Failure (Table Json)
  | obj ms => .ok ms
  | v => do
    return (← insertItems [] 0 (← v.parts)).map fun p => (p.1.keyText, p.2)

end Json

end CrossChain
