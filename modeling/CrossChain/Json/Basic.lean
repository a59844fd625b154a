import CrossChain.Decimal.Numeral
import CrossChain.Table

/-!
# JSON values

Values as they are read and written: integers of any size apart from binary64 numbers, objects with
their members in order.  Objects are made from pairs by `Json.ofPairs`, where the last value of a
repeated name wins and stays at the place of the first one.  An integer may have any size as a
value, but neither stands in a text that is read nor in one that is written if it has too many
digits (`Json.Short`, `Json.isWritable`).
-/

namespace CrossChain

/-- A JSON value. -/
inductive Json
  | null
  | bool (b : Bool)
  | int (n : Int)
  | float (x : Binary64)
  | str (s : Text)
  | arr (items : List Json)
  | obj (members : List (Text × Json))
  deriving Repr, Inhabited

namespace Json

instance : Coe Text Json := ⟨Json.str⟩

/-! ### Building -/

/-- The object of a list of pairs. -/
def ofPairs (pairs : List (Text × Json)) : Json := .obj (Table.ofPairs pairs)

/-- The object with the single member `key`. -/
def single (key : Text) (value : Json) : Json := .obj [(key, value)]

/-- The string, or null when there is none. -/
def ofText? : Option Text → Json
  | some s => .str s
  | none => .null

/-- A member that may be absent. -/
def member? (key : Text) : Option Json → List (Text × Json)
  | some v => [(key, v)]
  | none => []

/-! ### Views -/

/-- The values that count as empty: null, false, the zeros, and whatever has no parts. -/
def isEmpty : Json → Bool
  | null => true
  | bool b => !b
  | int n => n == 0
  | float x => x.isZero
  | str s => s.isEmpty
  | arr xs => xs.isEmpty
  | obj ms => ms.isEmpty

/-- The value as a number, where true and false count as one and zero. -/
def asInt? : Json → Option Int
  | bool b => some (if b then 1 else 0)
  | int n => some n
  | _ => none

/-! ### What can be written -/

/-- The digits of an integer are few enough for a numeral. -/
def Short (n : Int) : Prop := (Text.ofNat n.natAbs).length ≤ Numeral.maxDigits

instance decidableShort (n : Int) : Decidable (Short n) := inferInstanceAs (Decidable (_ ≤ _))

mutual

/-- Whether a value can be written: all its integers have few enough digits. -/
def isWritable : Json → Bool
  | int n => decide (Short n)
  | arr items => itemsWritable items
  | obj members => membersWritable members
  | _ => true

/-- Whether every item can be written. -/
def itemsWritable : List Json → Bool
  | [] => true
  | x :: xs => isWritable x && itemsWritable xs

/-- Whether the value of every member can be written. -/
def membersWritable : List (Text × Json) → Bool
  | [] => true
  | (_, v) :: ms => isWritable v && membersWritable ms

end

/-! ### Equality -/

mutual

/-- Whether two values agree: numbers by what they count, booleans among them, objects whatever the
order of their members, and the not-a-number with itself. -/
def agrees : Json → Json → Bool
  | null, null => true
  | bool a, y => match y with
    | float x => x.equalsInt (if a then 1 else 0)
    | y => y.asInt? == some (if a then 1 else 0)
  | int a, y => match y with
    | float x => x.equalsInt a
    | y => y.asInt? == some a
  | float x, y => match y with
    | float x' => x.agrees x'
    | y => (y.asInt?.map x.equalsInt).getD false
  | str a, str b => a == b
  | arr xs, arr ys => agreeItems xs ys
  | obj ms, obj ns => ms.length == ns.length && agreeMembers ms ns
  | _, _ => false

/-- Whether two lists agree item by item. -/
def agreeItems : List Json → List Json → Bool
  | [], [] => true
  | x :: xs, y :: ys => agrees x y && agreeItems xs ys
  | _, _ => false

/-- Whether the second list of members gives every name of the first a value that agrees. -/
def agreeMembers : List (Text × Json) → List (Text × Json) → Bool
  | [], _ => true
  | (k, v) :: rest, ns =>
    (match Table.get? k ns with
      | some w => agrees v w
      | none => false) && agreeMembers rest ns

end

/-- Whether two values are equal: they agree, and they are not the not-a-number, which equals
nothing when it stands alone. -/
def equals : Json → Json → Bool
  | float .nan, _ => false
  | x, y => agrees x y

/-- Whether the value is the given string. -/
def isText (s : Text) : Json → Bool
  | str t => t == s
  | _ => false

end Json

end CrossChain
