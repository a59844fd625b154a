import CrossChain.Act
import CrossChain.Message
import CrossChain.Settings

/-!
# Chains and what stands on them

A client signs and asks on one chain; it is given by how it answers each call.  A contract is known
by its address, and a chain with its client, contracts and channels is an endpoint.
-/

namespace CrossChain

/-! ### Clients -/

/-- What is asked of a chain. -/
inductive ChainCall
  | upload (wasm : Path) (label : Text)
  | instantiate (codeId body : Json) (label : Text)
  | execute (address message : Json) (funds : List Coin)
  | query (address message : Json)
  | balance (address denom : Json)
  | sendTokens (recipient : Json) (funds : List Coin)

/-- What a call is answered with: a code id, an address, the hash of a transaction, a value, a coin,
or the hash of the last of several transactions. -/
def ChainCall.Answer : ChainCall → Type
  | upload .. => Int
  | instantiate .. => Text
  | execute .. => Text
  | query .. => Json
  | balance .. => Coin
  | sendTokens .. => Option Text

/-- A client of one chain over states of type `σ`. -/
structure ChainClient (σ : Type) where
  chainId : Text
  sender : Text
  answer : (c : ChainCall) → Act σ c.Answer

namespace ChainClient

variable {σ : Type} (client : ChainClient σ)

/-- Stores code and gives its id. -/
def upload (wasm : Path) (label : Text) : Act σ Int := client.answer (.upload wasm label)

/-- Makes a contract of stored code and gives its address. -/
def instantiate (codeId body : Json) (label : Text) : Act σ Text :=
  client.answer (.instantiate codeId body label)

/-- Sends a message with funds to a contract and gives the hash of the transaction. -/
def execute (address message : Json) (funds : List Coin) : Act σ Text :=
  client.answer (.execute address message funds)

/-- Asks a contract. -/
def query (address message : Json) : Act σ Json := client.answer (.query address message)

/-- What an account has of a denomination. -/
def balance (address denom : Json) : Act σ Coin := client.answer (.balance address denom)

/-- Sends coins to an account. -/
def sendTokens (recipient : Json) (funds : List Coin) : Act σ (Option Text) :=
  client.answer (.sendTokens recipient funds)

end ChainClient

/-- How clients come about: from a chain and the mnemonic of an account. -/
abbrev Connect (σ : Type) := ChainDefinition → Text → Act σ (ChainClient σ)

/-- Sends an amount from the faucet of a chain, in its fee denomination unless another is given. -/
def Faucet.fund {σ : Type} (connect : Connect σ) (d : ChainDefinition)
    (address : Json) (amount : Text) (denom : Json) : Act σ (Option Text) := do
  let client ← connect d d.faucet.mnemonic
  client.sendTokens address [⟨amount, if denom.isEmpty then .str d.denomFee else denom⟩]

/-! ### Contracts -/

/-- A contract, known by its address. -/
structure Contract where
  address : Json
  deriving Repr

namespace Contract

variable {σ : Type} (client : ChainClient σ) (contract : Contract)

/-- The port that a contract's channels end at. -/
def port : Text := "wasm." ++ contract.address.display

/-- Sends a message with funds. -/
def execute (m : ContractMessage) (funds : List GivenCoin) : Act σ Text := do
  client.execute contract.address m.toJson (← Act.ofExcept (Funds.read funds))

/-- Asks a contract. -/
def query (m : ContractMessage) : Act σ Json := client.query contract.address m.toJson

/-- Sends whatever was handed over, with the funds that a value says. -/
def hand (h : Handed) (funds : Json) : Act σ Text := do
  let message ← Act.ofExcept h.toJson
  client.execute contract.address message (← Act.ofExcept (Funds.ofJson funds))

/-- Asks whatever was handed over. -/
def ask (h : Handed) : Act σ Json := do
  client.query contract.address (← Act.ofExcept h.toJson)

end Contract

/-- A contract that was just made of stored code. -/
structure Deployment where
  address : Text
  codeId : Json
  deriving Repr

namespace Deployment

/-- The contract. -/
def contract (d : Deployment) : Contract := ⟨.str d.address⟩

/-- Makes a contract of stored code. -/
def ofCode {σ : Type} (client : ChainClient σ) (codeId body : Json) (label : Text) :
    Act σ Deployment :=
  return ⟨← client.instantiate codeId body label, codeId⟩

end Deployment

/-! ### Endpoints -/

/-- The contracts that a chain's kernel and registry are known as. -/
def kernelName : Text := "kernel"

/-- The name of the registry of applications. -/
def registryName : Text := "adodb"

/-- A chain in the course of a run. -/
structure Endpoint (σ : Type) where
  name : Text
  definition : ChainDefinition
  client : ChainClient σ
  contracts : Table Contract := []
  ics20Channel : Text := []
  directChannel : Json := .str []
  ibcDenom : Text := []

namespace Endpoint

variable {σ : Type} (e : Endpoint σ)

/-- The contract of a name; `title` is what it is called when it is missing. -/
def contract (name title : Text) : Except Failure Contract :=
  match Table.get? name e.contracts with
  | some c => .ok c
  | none => .error (.notDeployed title e.name)

/-- The kernel of a chain. -/
def kernel : Except Failure Contract := e.contract kernelName "Kernel"

/-- The registry of applications of a chain. -/
def registry : Except Failure Contract := e.contract registryName "ADO database"

/-- The endpoint with contracts at further addresses. -/
def withAddresses (addresses : Table Json) : Endpoint σ :=
  { e with contracts := Table.insertAll e.contracts (addresses.map fun p => (p.1, ⟨p.2⟩)) }

end Endpoint

end CrossChain
