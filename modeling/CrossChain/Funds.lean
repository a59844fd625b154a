import CrossChain.Failure

/-!
# Funds

Coins as they come in and go out: given as coins or as values with the members `amount` and `denom`,
and written one after the other the way a transaction attaches them.
-/

namespace CrossChain

namespace Coin

/-- Reads a coin; its amount may be any value and is kept as its text. -/
def ofJson (v : Json) : Except Failure Coin := do
  let amount ← (← v.member "amount").shown
  let denom ← v.member "denom"
  return ⟨amount, denom⟩

end Coin

/-- A coin as it is given: read already, or as the value that says it. -/
inductive GivenCoin
  | coin (c : Coin)
  | value (v : Json)
  deriving Repr

namespace GivenCoin

instance : Coe Coin GivenCoin := ⟨coin⟩

/-- The coin that is given. -/
def read : GivenCoin → Except Failure Coin
  | coin c => .ok c
  | value v => Coin.ofJson v

end GivenCoin

namespace Funds

/-- The coins that are given. -/
def read (given : List GivenCoin) : Except Failure (List Coin) := given.mapM GivenCoin.read

/-- What a value gives as funds: the items of a list.  An object is gone through by its names and a
text by its characters, none of which is a coin. -/
def given : Json → Except Failure (List GivenCoin)
  | .arr items => .ok (items.map .value)
  | .obj members => .ok (members.map fun member => .value (.str member.1))
  | .str s => .ok (s.map fun c => .value (.str [c]))
  | _ => .error .wrongKind

/-- Reads a list of coins. -/
def ofJson (v : Json) : Except Failure (List Coin) := do read (← given v)

/-- The coins as the text that is attached to a transaction; no coins have none. -/
def attached? : List Coin → Option Text
  | [] => none
  | coins => some (Text.join "," (coins.map fun c => c.amount ++ c.denom.display))

/-- The text of coins, unless a denomination of them cannot be written. -/
def attach (coins : List Coin) : Except Failure (Option Text) :=
  if coins.all fun c => c.denom.isWritable then .ok (attached? coins)
  else .error (.value .unwritable)

end Funds

end CrossChain
