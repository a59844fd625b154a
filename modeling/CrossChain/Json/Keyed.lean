import CrossChain.Failure

/-!
# Tables with values as keys

The keys of a table may be values, as long as they have neither items nor members.  Keys that agree
are one key: it keeps its place and its first form, and gets the last value.
-/

namespace CrossChain

namespace Json

/-- The value as a key; what has items or members is none. -/
def asKey : Json → Except Failure Json
  | arr _ => .error .wrongKind
  | obj _ => .error .wrongKind
  | v => .ok v

end Json

/-- Keys with values, in the order in which the keys first came in. -/
abbrev Keyed (α : Type) := List (Json × α)

namespace Keyed

variable {α : Type}

/-- The value that a table has for a key. -/
def get? (key : Json) : Keyed α → Option α
  | [] => none
  | (k, v) :: rest => if k.agrees key then some v else get? key rest

/-- The table with the value of a key replaced where the key stands, or added at the end. -/
def insert (key : Json) (value : α) : Keyed α → Keyed α
  | [] => [(key, value)]
  | (k, v) :: rest => if k.agrees key then (k, value) :: rest else (k, v) :: insert key value rest

/-- The table without a key. -/
def erase (key : Json) (t : Keyed α) : Keyed α := t.filter fun p => !p.1.agrees key

end Keyed

end CrossChain
