import CrossChain.Client
import CrossChain.Link
import CrossChain.Relay.Info

/-!
# Checks of outcomes

What a relay moved and what it left on the chains, against what was expected.  A difference is a
mismatch that names what differs; a malformed acknowledgement is a violation.
-/

namespace CrossChain

variable [Json.Limits]

namespace Ack

/-- Checks that every acknowledgement carries a result. -/
def checkResults (acks : List Ack) : Except Failure Unit :=
  acks.forM fun ack => do
    let said ← ack.body.decode
    if !said.ok then throw (.mismatch (.errorInAck said.payload))

/-- Checks that every acknowledgement carries an error. -/
def checkErrors (acks : List Ack) : Except Failure Unit :=
  acks.forM fun ack => do
    let said ← ack.body.decode
    if said.ok then throw (.mismatch (.resultInAck said.payload))

end Ack

namespace RelayInfo

/-- The packets that left a side, and the acknowledgements written across. -/
def sentFrom (info : RelayInfo) (side : Side) : Int × List Ack :=
  (side.pick info.packetsFromA info.packetsFromB, side.pick info.acksFromB info.acksFromA)

/-- Checks that `count` packets left a side, and that as many acknowledgements were written across,
all of them results or all of them errors. -/
def check (info : RelayInfo) (count : Int) (success : Bool) (side : Side) :
    Except Failure Unit := do
  let (packets, acks) := info.sentFrom side
  if packets != count then throw (.mismatch (.packets count packets))
  if (acks.length : Int) != count then throw (.mismatch (.acks count acks.length))
  if success then Ack.checkResults acks else Ack.checkErrors acks

/-- Checks a relay only if its first sweep succeeded: earlier sweeps may have moved packets that
nobody counted.  Says whether the check was made. -/
def checkFirst (first : Bool) (info : RelayInfo) (count : Int) (success : Bool) (side : Side) :
    Except Failure Bool := do
  if !first then return false
  info.check count success side
  return true

end RelayInfo

namespace Endpoint

variable {σ : Type} (e : Endpoint σ)

/-- Checks that an account has exactly the amount of a coin. -/
def checkBalance (address : Json) (expected : Coin) : Act σ Unit := do
  let held ← e.client.balance address expected.denom
  if held.amount != expected.amount then
    throw (.mismatch (.balance e.name address held.amount expected.amount expected.denom))

/-- The coins that an account may recover. -/
def recoveries (address : Json) : Act σ (List Coin) := do
  let kernel ← Act.ofExcept e.kernel
  let found ← kernel.query e.client (.recoveries address)
  Act.ofExcept (Funds.ofJson (if found.isEmpty then .arr [] else found))

/-- Checks that an account may recover exactly one coin, and which.  Gives the coin found. -/
def checkRecovery (address : Json) (expected : Coin) : Act σ Coin := do
  match ← e.recoveries address with
  | [found] =>
    if found.amount != expected.amount then throw (.mismatch (.recoveryAmount found.amount))
    if !found.denom.equals expected.denom then throw (.mismatch (.recoveryDenom found.denom))
    return found
  | found => throw (.mismatch (.recoveryCount address found.length))

end Endpoint

end CrossChain
