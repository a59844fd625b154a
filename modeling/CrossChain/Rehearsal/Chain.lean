import CrossChain.Client
import CrossChain.Json.Keyed

/-!
# Scripted chains

A chain for rehearsals: it has tables of what its contracts know and its accounts have, counts what
is stored and made on it, and refuses the operations that its script names.  It keeps a log of all
it was asked.
-/

namespace CrossChain

/-- An operation that a scripted chain refuses, by its name and what it is about. -/
structure Refusal where
  operation : Text
  target : Json
  failure : Failure

/-- A scripted chain; `letter` is part of the addresses and hashes that it gives out. -/
structure ScriptedChain where
  letter : Text
  chainId : Text
  sender : Text
  refusals : List Refusal := []
  keyAddresses : Keyed Json := []
  codeIds : Keyed Json := []
  channels : Keyed Json := []
  recoveries : Keyed Json := []
  balances : Keyed (Keyed Json) := []
  withoutHashes : Bool := false
  frozen : Bool := false
  uploads : Nat := 0
  instances : Nat := 0
  transactions : Nat := 0
  log : List ChainCall := []

namespace ScriptedChain

/-! ### Calls by name -/

/-- The name of an operation. -/
def operationOf : ChainCall → Text
  | .upload .. => "upload"
  | .instantiate .. => "instantiate"
  | .execute .. => "execute"
  | .query .. => "query"
  | .balance .. => "get_balance"
  | .sendTokens .. => "send_tokens"

/-- The only member of a message with its name. -/
def only? : Json → Option (Text × Json)
  | .obj [member] => some member
  | _ => none

/-- The name of the only member of a message, empty for any other. -/
def tagOf (message : Json) : Text := ((only? message).map (·.1)).getD []

/-- What an operation is about. -/
def targetOf : ChainCall → Json
  | .upload _ label => label
  | .instantiate _ _ label => label
  | .execute _ message _ => tagOf message
  | .query _ message => tagOf message
  | .balance address _ => address
  | .sendTokens recipient _ => recipient

/-! ### Tables -/

/-- The member of a message's body that is a key of a table. -/
def keyMember (name : Text) (body : Json) : Except Failure Json := do
  (← body.member name).asKey

/-- What a chain learns from a message. -/
def learn (c : ScriptedChain) (message : Json) : Except Failure ScriptedChain :=
  match only? message with
  | none => .ok c
  | some (tag, body) =>
    if tag = text "upsert_key_address" then do
      let value ← body.member "value"
      let key ← keyMember "key" body
      return { c with keyAddresses := Keyed.insert key value c.keyAddresses }
    else if tag = text "assign_channels" then do
      let ics20 ← body.member "ics20_channel_id"
      let direct ← body.member "direct_channel_id"
      let chain ← keyMember "chain" body
      let channel := Json.obj [("ics20", ics20), ("direct", direct)]
      return { c with channels := Keyed.insert chain channel c.channels }
    else if tag = text "recover" then
      .ok { c with recoveries := Keyed.erase c.sender c.recoveries }
    else .ok c

/-- What a table has for the key that a question asks for. -/
def stored (table : Keyed Json) (name : Text) (body : Json) : Except Failure Json := do
  let key ← keyMember name body
  match Keyed.get? key table with
  | some v => return v
  | none => throw (.missingKey key)

/-- What a chain tells. -/
def tell (c : ScriptedChain) (address message : Json) : Except Failure Json :=
  let unknown (tag : Text) : Except Failure Json :=
    .error (.contract address ("unknown query " ++ tag))
  match only? message with
  | none => unknown []
  | some (tag, body) =>
    if tag = text "key_address" then stored c.keyAddresses "key" body
    else if tag = text "channel_info" then stored c.channels "chain" body
    else if tag = text "code_id" then stored c.codeIds "key" body
    else if tag = text "recoveries" then do
      return (Keyed.get? (← keyMember "addr" body) c.recoveries).getD (.arr [])
    else unknown tag

/-- The amount that an account has of a denomination. -/
def amountOf (c : ScriptedChain) (address denom : Json) : Except Failure Text := do
  let held := (Keyed.get? (← address.asKey) c.balances).getD []
  return ((Keyed.get? (← denom.asKey) held).map Json.display).getD "0"

/-- The chain with the amount that an account has of a denomination. -/
def withAmount (address denom amount : Json) (c : ScriptedChain) : ScriptedChain :=
  let held := (Keyed.get? address c.balances).getD []
  { c with balances := Keyed.insert address (Keyed.insert denom amount held) c.balances }

/-! ### Calls -/

/-- The hash of the next transaction, or of none. -/
def nextHash : Act ScriptedChain Text := do
  let c ← get
  if c.withoutHashes then return []
  set { c with transactions := c.transactions + 1 }
  return "TX" ++ c.letter ++ Text.ofNat (c.transactions + 1)

/-- What a chain does when it does not refuse. -/
def perform : (call : ChainCall) → Act ScriptedChain call.Answer
  | .upload _ label => do
    let c ← get
    let code : Int := c.uploads + 1
    set { c with uploads := c.uploads + 1, codeIds := Keyed.insert label (.int code) c.codeIds }
    return code
  | .instantiate _ _ label => do
    let c ← get
    set { c with instances := c.instances + 1 }
    let address : Text := "osmo1" ++ label ++ c.letter ++ Text.ofNat (c.instances + 1)
    return address
  | .execute _ message _ => do
    let c ← get
    if !c.frozen then set (← Act.ofExcept (c.learn message))
    nextHash
  | .query address message => do Act.ofExcept ((← get).tell address message)
  | .balance address denom => do
    return ⟨← Act.ofExcept ((← get).amountOf address denom), denom⟩
  | .sendTokens .. => do return some (← nextHash)

/-- Refuses a call that the script names; questions for balances are never refused. -/
def refuse (call : ChainCall) : Act ScriptedChain Unit := do
  let isMeant (r : Refusal) : Bool :=
    r.operation == operationOf call && r.target.equals (targetOf call)
  match call, (← get).refusals.find? isMeant with
  | .balance .., _ => return
  | _, none => return
  | _, some r => throw r.failure

/-- Answers a call: notes it, refuses it if the script says so, and else performs it. -/
def answer (call : ChainCall) : Act ScriptedChain call.Answer := do
  modify fun c => { c with log := c.log ++ [call] }
  refuse call
  perform call

end ScriptedChain

end CrossChain
