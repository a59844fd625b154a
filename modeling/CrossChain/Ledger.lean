import CrossChain.Client

/-!
# Ledger clients

A client that signs with a wallet and talks to a ledger.  Transactions go out one at a time: each is
waited for and checked before the next.  What fails in a contract operation is told as a refusal of
the contract.
-/

namespace CrossChain

/-- What is asked of wallets, ledgers, contracts and transactions.  Operations on a contract are
about the contract opened last, and `await` and `check` about the transaction sent last. -/
inductive LedgerCall
  | wallet (mnemonic addressPrefix : Text)
  | ledger (chainId url : Text) (gasPrice : Binary64) (denomFee denomStaking : Text)
  | contract (wasm : Option Text) (codeId : Option Json) (address : Option Json)
  | store (memo : Text)
  | instantiate (body : Json) (label admin : Text)
  | execute (message : Json) (funds : Option Text)
  | query (message : Json)
  | balance (address : Text) (denom : Json)
  | sendTokens (recipient : Text) (amount : Int) (denom : Json)
  | await (timeout poll : Binary64)
  | check

/-- What a call is answered with: the wallet's address, a code id, an address, the hash of a
transaction, a value, an amount, or nothing. -/
def LedgerCall.Answer : LedgerCall → Type
  | wallet .. => Text
  | store _ => Int
  | instantiate .. => Text
  | execute .. => Text
  | query _ => Json
  | balance .. => Json
  | sendTokens .. => Text
  | ledger .. | contract .. | await .. | check => Unit

/-- What answers ledger calls over states of type `σ`, and the account address that it reads off a
value, if it is one. -/
structure Node (σ : Type) where
  address : Json → Except Failure Text
  answer : (c : LedgerCall) → Act σ c.Answer

instance {σ : Type} : CoeFun (Node σ) fun _ => (c : LedgerCall) → Act σ c.Answer := ⟨Node.answer⟩

namespace Ledger

section Operations

variable {σ : Type} (node : Node σ)

/-- The act with every failure told as the refusal of a target; `about` is what was done. -/
def refusing {α : Type} (target : Json) (about : Except Failure Text) (act : Act σ α) :
    Act σ α := do
  match ← Act.attempt act with
  | .ok a => return a
  | .error e => throw (.refused target ((← Act.ofExcept about) ++ " failed: " ++ e.message))

/-- The parts of a message, as a refusal names them: the names of an object, the items of a list,
the characters of a text. -/
def partsOf : Json → Except Failure Text
  | .obj members => .ok (Json.quotedNames (members.map (·.1)))
  | .arr items => Json.shown (.arr items)
  | .str s => .ok (Json.quotedNames (s.map fun c => [c]))
  | _ => .error .wrongKind

/-- What was done with a message. -/
def doing (verb : Text) (message : Json) : Except Failure Text :=
  return verb ++ " " ++ (← partsOf message)

/-- Waits for the transaction sent last, and checks that it went well. -/
def settle (hash : Text) : Act σ Text := do
  node (.await Settings.broadcastTimeout Settings.pollInterval)
  node .check
  return hash

/-- Stores code. -/
def upload (wasm : Path) (label : Text) : Act σ Int :=
  refusing label (.ok "upload") do
    node (.contract (some wasm.toText) none none)
    node (.store ("Upload " ++ label))

/-- Makes a contract of stored code, with the wallet as its admin. -/
def instantiate (wallet : Text) (codeId body : Json) (label : Text) : Act σ Text :=
  refusing label (.ok "instantiate") do
    node (.contract none (some codeId) none)
    node (.instantiate body label wallet)

/-- Sends a message with funds to a contract. -/
def execute (target message : Json) (funds : List Coin) : Act σ Text :=
  refusing target (doing "execute" message) do
    let account ← Act.ofExcept (node.address target)
    node (.contract none none (some (.str account)))
    let attached ← Act.ofExcept (Funds.attach funds)
    settle node (← node (.execute message attached))

/-- Asks a contract. -/
def query (target message : Json) : Act σ Json :=
  refusing target (doing "query" message) do
    let account ← Act.ofExcept (node.address target)
    node (.contract none none (some (.str account)))
    node (.query message)

/-- What an account has of a denomination. -/
def balance (account denom : Json) : Act σ Coin := do
  let account ← Act.ofExcept (node.address account)
  let amount ← node (.balance account denom)
  return ⟨← Act.ofExcept (Json.shown amount), denom⟩

/-- Sends coins one after the other, each in a transaction of its own.  Gives the hash of the last
one; `hash` is that of the one before. -/
def sendTokens (recipient : Json) (hash : Option Text) : List Coin → Act σ (Option Text)
  | [] => return hash
  | coin :: rest => do
    let account ← Act.ofExcept (node.address recipient)
    let amount ← Act.ofExcept (Text.toInt coin.amount)
    let hash ← settle node (← node (.sendTokens account amount coin.denom))
    sendTokens recipient (some hash) rest

/-- The client that talks to a ledger with a wallet. -/
def client (d : ChainDefinition) (wallet : Text) : ChainClient σ where
  chainId := d.chainId
  sender := wallet
  answer
    | .upload wasm label => upload node wasm label
    | .instantiate codeId body label => instantiate node wallet codeId body label
    | .execute target message funds => execute node target message funds
    | .query target message => query node target message
    | .balance account denom => balance node account denom
    | .sendTokens recipient funds => sendTokens node recipient none funds

/-- Connects to a chain with the account of a mnemonic. -/
def connect : Connect σ := fun d mnemonic => do
  let gasPrice ← Act.ofExcept d.gasPrice
  let wallet ← node (.wallet mnemonic d.addressPrefix)
  node (.ledger d.chainId ("rest+" ++ d.restUrl) gasPrice d.denomFee d.denomStaking)
  return client node d wallet

end Operations

end Ledger

end CrossChain
