import CrossChain.Ledger
import CrossChain.Rehearsal.Address

/-!
# Scripted ledgers

A node for rehearsals: it gives every question the same answer, numbers the transactions, fails the
calls that its script names, and keeps a log of all it was asked.
-/

namespace CrossChain

variable [Json.Limits]

/-- A scripted node; `answer` spells what questions are answered with. -/
structure ScriptedNode where
  walletAddress : Text := "osmo1wallet"
  codeId : Int := 1
  madeAddress : Text := "osmo1new"
  balance : Json := .int 0
  answer : Json := .str "null"
  failures : Table Text := []
  transactions : Nat := 0
  log : List LedgerCall := []

namespace ScriptedNode

/-- The name of a call. -/
def nameOf : LedgerCall → Text
  | .wallet .. => "wallet"
  | .ledger .. => "ledger"
  | .contract .. => "contract"
  | .store _ => "store"
  | .instantiate .. => "instantiate"
  | .execute .. => "execute"
  | .query _ => "query"
  | .balance .. => "query_bank_balance"
  | .sendTokens .. => "send_tokens"
  | .await .. => "wait_to_complete"
  | .check => "ensure_successful"

/-- The hash of the next transaction. -/
def nextHash : Act ScriptedNode Text := do
  let n ← get
  set { n with transactions := n.transactions + 1 }
  return "HASH" ++ Text.ofNat (n.transactions + 1)

/-- What a node answers when it does not fail. -/
def perform : (call : LedgerCall) → Act ScriptedNode call.Answer
  | .wallet .. => return (← get).walletAddress
  | .store _ => return (← get).codeId
  | .instantiate .. => return (← get).madeAddress
  | .execute .. => nextHash
  | .query _ => do Act.ofExcept (← get).answer.spelled
  | .balance .. => return (← get).balance
  | .sendTokens .. => nextHash
  | .ledger .. => return ()
  | .contract .. => return ()
  | .await .. => return ()
  | .check => return ()

/-- The node: notes a call, fails it if the script says so, and else answers it. -/
def node : Node ScriptedNode where
  address := Bech32.read
  answer call := do
    modify fun n => { n with log := n.log ++ [call] }
    if let some message := Table.get? (nameOf call) (← get).failures then throw (.broken message)
    perform call

end ScriptedNode

end CrossChain
