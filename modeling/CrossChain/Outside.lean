import CrossChain.Client
import CrossChain.Hermes.Output
import CrossChain.Readiness

/-!
# The outside world

What a run needs of the world: time to pass, random bytes and addresses made of them, requests over
HTTP, processes, clients of chains, and the clock.
-/

namespace CrossChain

/-- The outside world over states of type `σ`. -/
structure Outside (σ : Type) where
  sleep : Binary64 → Act σ Unit
  randomBytes : Nat → Act σ (List UInt8)
  addressOf : Text → List UInt8 → Except Failure Text
  fetch : Text → Binary64 → Act σ HttpAnswer
  run : List Text → Act σ ProcessResult
  connect : Connect σ
  now : Act σ Binary64

/-- The address of an account that nobody has the key for. -/
def Outside.freshAddress {σ : Type} (o : Outside σ) (addressPrefix : Text) : Act σ Text := do
  Act.ofExcept (o.addressOf addressPrefix (← o.randomBytes 20))

/-- The outside world of a machine without a network: no server answers, nothing can be run, no
address is made, and no time passes. -/
def Outside.offline : Outside Unit where
  sleep _ := return
  randomBytes count := return List.replicate count 0
  addressOf _ _ := .error (.broken "no addresses")
  fetch _ _ := throw (.request (.connection "no network"))
  run _ := throw (.file (.reported "no processes"))
  connect _ _ := throw (.broken "no network")
  now := return .ofDecimal false 0 0

end CrossChain
