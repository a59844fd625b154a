import CrossChain.Json.Display

/-!
# Coins

An amount of a denomination.  The amount is text, since chains write amounts of any size as text;
the denomination is whatever value a source gave it, and a text in all that this library builds
itself.
-/

namespace CrossChain

/-- An amount of a denomination. -/
structure Coin where
  amount : Text
  denom : Json
  deriving Repr, Inhabited

namespace Coin

/-- The coin as an object with the members `amount` and `denom`. -/
def toJson (c : Coin) : Json := .obj [("amount", c.amount), ("denom", c.denom)]

/-- The coin as a message shows it inside a list. -/
def display (c : Coin) : Text :=
  "Coin(amount=" ++ c.amount.quoted ++ ", denom=" ++ c.denom.quoted ++ ")"

/-- A list of coins as a message shows it. -/
def displayAll (coins : List Coin) : Text :=
  "[" ++ Text.join ", " (coins.map display) ++ "]"

end Coin

end CrossChain
