import CrossChain.Act
import CrossChain.Http
import CrossChain.Relay.Relayer

/-!
# Readiness

A chain is ready when it has produced a block, a relayer when it says so.  Both are looked at a
bounded number of times, with a pause after each look that found them not ready.
-/

namespace CrossChain

namespace Readiness

/-- How long a status request may take. -/
def requestTimeout : Binary64 := .ofDecimal false 5 0

/-- The address of a chain's status. -/
def statusUrl (rpcUrl : Text) : Text := rpcUrl.stripRight (· == 47) ++ "/status"

/-- The height that a status tells. -/
def heightOf (status : Json) : Except Failure Int := do
  let result ← status.member "result"
  let sync ← result.member "sync_info"
  (← sync.member "latest_block_height").toInt

/-- The failures that say no more than that a chain is not ready. -/
def isNotReady (e : Failure) : Bool := e.isRequest || e.isLookup || e.isValue

/-- Looks up to `left` times, with a pause after each look that found nothing. -/
def poll {σ α : Type} (pause : Act σ Unit) (look : Act σ (Option α)) : Nat → Act σ (Option α)
  | 0 => return none
  | left + 1 => do
    match ← look with
    | some a => return some a
    | none =>
      pause
      poll pause look left

section Chains

variable {σ : Type} (fetch : Text → Binary64 → Act σ HttpAnswer)

/-- The height of the latest block of the chain at an address. -/
def blockHeight (rpcUrl : Text) (timeout : Binary64) : Act σ Int := do
  let answer ← fetch (statusUrl rpcUrl) timeout
  Act.ofExcept (answer.read >>= heightOf)

/-- The height of the chain at an address, if it has produced a block. -/
def look (rpcUrl : Text) : Act σ (Option Int) := do
  match ← Act.attempt (blockHeight fetch rpcUrl requestTimeout) with
  | .ok height => return if 1 ≤ height then some height else none
  | .error e => if isNotReady e then return none else throw e

/-- Waits until the chain at an address has produced a block.  Gives the height seen. -/
def awaitChain (sleep : Binary64 → Act σ Unit) (rpcUrl : Text) (attempts : Int)
    (interval : Binary64) : Act σ Int := do
  match ← poll (sleep interval) (look fetch rpcUrl) attempts.toNat with
  | some height => return height
  | none => throw (.chainNotReady rpcUrl attempts)

end Chains

/-- Waits until a relayer is healthy. -/
def awaitRelayer {σ : Type} (r : Relayer σ) (sleep : Binary64 → Act σ Unit) (attempts : Int)
    (interval : Binary64) : Act σ Unit := do
  let ready : Act σ (Option Unit) := do return if ← r.isReady then some () else none
  match ← poll (sleep interval) ready attempts.toNat with
  | some () => return
  | none => throw (.relayerNotReady attempts)

end Readiness

end CrossChain
