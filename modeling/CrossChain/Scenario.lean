import CrossChain.Bootstrap
import CrossChain.Campaign
import CrossChain.Outcome
import CrossChain.Relay.Sweep

/-!
# Scenarios

The steps of a campaign: install the operating system on both chains, open a channel between the
kernels, tell each kernel of the other, send coins through the kernels and check that they arrive,
or that they come back and can be recovered.
-/

namespace CrossChain

variable [Json.Limits]

namespace Scenario

/-! ### Single chains -/

section Chains

variable {σ : Type} (e : Endpoint σ)

/-- Tells the kernel of a chain how to reach another, and checks that it has understood. -/
def assignChannels (remote : Endpoint σ) : Act σ Unit := do
  let kernel ← Act.ofExcept e.kernel
  let other ← Act.ofExcept remote.kernel
  let _ ← kernel.execute e.client
    (.assignChannels (.str e.ics20Channel) other.address remote.name e.directChannel) []
  let assigned ← kernel.query e.client (.channelInfo remote.name)
  let ics20 ← Act.ofExcept (assigned.member "ics20")
  if !ics20.isText e.ics20Channel then throw (.mismatch (.ics20Channel e.name ics20))
  let direct ← Act.ofExcept (assigned.member "direct")
  if !direct.equals e.directChannel then throw (.mismatch (.directChannel e.name direct))

/-- Sends coins with an optional call through the kernel.  Gives the hash of the transaction. -/
def send (recipient : Text) (funds : List GivenCoin) (body : Json := .null)
    (recovery : Option RecoveryConfig := none) : Act σ Text := do
  let coins := (← Act.ofExcept (Funds.read funds)).map GivenCoin.coin
  let message ← Act.ofExcept (RoutedMessage.routed recipient body coins recovery)
  let kernel ← Act.ofExcept e.kernel
  let hash ← kernel.execute e.client (.send message) coins
  if hash.isEmpty then throw (.mismatch .sendWithoutHash)
  return hash

/-- Sends a coin to a fresh address on the same chain and checks that it arrived.  Gives the
address. -/
def sendLocal (o : Outside σ) (coin : Coin) : Act σ Text := do
  let receiver ← o.freshAddress e.definition.addressPrefix
  let _ ← send e ("/" ++ receiver) [coin]
  e.checkBalance receiver coin
  return receiver

/-- Makes a splitter from the code that the registry has for it. -/
def makeSplitter (recipients : List SplitterRecipient) : Act σ Deployment := do
  let code ← e.codeId "splitter"
  let kernel ← Act.ofExcept e.kernel
  Deployment.ofCode e.client code (Instantiation.splitter kernel.address recipients).toJson
    "splitter"

/-- Withdraws what an account may recover, and checks that nothing is left. -/
def recover (address : Json) : Act σ Unit := do
  let kernel ← Act.ofExcept e.kernel
  let hash ← kernel.execute e.client .recover []
  if hash.isEmpty then throw (.mismatch .recoverWithoutHash)
  let left ← e.recoveries address
  if !left.isEmpty then throw (.mismatch (.recoveriesLeft address left))

end Chains

/-! ### Both chains -/

section Transfers

variable {σ : Type} (r : Relayer σ) (o : Outside σ) (c : Campaign σ)

/-- Tells both kernels of each other. -/
def assignAllChannels : Act σ Unit := do
  assignChannels c.a c.b
  assignChannels c.b c.a

/-- Relays whatever waits. -/
def relay : Act σ (Bool × RelayInfo) :=
  c.link.relay r o.sleep Sweep.defaultBudget Sweep.defaultDelay

/-- Relays, and checks that the first sweep moved one packet from a side, with the given success. -/
def relayOne (success : Bool) (side : Side) : Act σ Unit := do
  let (first, info) ← relay r o c
  discard (Act.ofExcept (info.checkFirst first 1 success side))

/-- Sends a coin from a side to a fresh address on the other chain, relays, and checks that it
arrived under its denomination there.  Gives the address. -/
def sendRemote (side : Side) (coin : Coin) : Act σ Text := do
  let source := c.endpoint side
  let dest := c.counterparty side
  let receiver ← o.freshAddress dest.definition.addressPrefix
  let _ ← send source (Recipient.remote dest.name receiver) [coin]
  relayOne r o c true side
  dest.checkBalance receiver ⟨coin.amount, .str dest.ibcDenom⟩
  return receiver

/-- The call that makes a splitter pass on what it got. -/
def splitCall : Json := .single "send" (.obj [])

/-- The same call in binary form, for the splitter's recipient. -/
def onwardCall : Text := BinaryBody.wrap splitCall

/-- The recipient of a splitter on chain B that sends back to an address on chain A. -/
def homeward (receiver : Text) : SplitterRecipient :=
  { address := Recipient.remote c.a.name receiver }

/-- Sends a coin from A to a splitter on B that sends it back to a fresh address on A, and checks
that it came home.  Gives the address. -/
def sendRoundTrip (coin : Coin) : Act σ Text := do
  let receiver ← o.freshAddress c.a.definition.addressPrefix
  let splitter ← makeSplitter c.b [homeward c receiver]
  let _ ← send c.a (Recipient.remote c.b.name splitter.address) [coin] splitCall
  relayOne r o c true .a
  let _ ← relay r o c
  c.a.checkBalance receiver coin
  return receiver

/-- Sends a coin from A with a call that a splitter on B refuses, checks that the splitter keeps
nothing and that the coin can be recovered on A, and recovers it.  Gives the account that recovers.
-/
def sendFailingCall (coin : Coin) : Act σ Text := do
  let receiver ← o.freshAddress c.a.definition.addressPrefix
  let owner := c.a.client.sender
  let splitter ← makeSplitter c.b [homeward c receiver]
  let _ ← send c.a (Recipient.remote c.b.name splitter.address) [coin]
    (.single "not_a_valid_message" (.obj [])) (some ⟨some owner⟩)
  relayOne r o c false .a
  c.b.checkBalance splitter.address ⟨"0", .str c.b.ibcDenom⟩
  let _ ← c.a.checkRecovery owner coin
  recover c.a owner
  return owner

/-- Sends a coin from A to a splitter on B whose onward call fails on A, checks that it can be
recovered on B under its denomination there, and recovers it.  Gives the account that recovers. -/
def sendFailingReturn (coin : Coin) : Act σ Text := do
  let receiver ← o.freshAddress c.a.definition.addressPrefix
  let owner := c.b.client.sender
  let splitter ← makeSplitter c.b
    [{ homeward c receiver with call := some onwardCall, recoveryAddress := some owner }]
  let _ ← send c.a (Recipient.remote c.b.name splitter.address) [coin] splitCall (some ⟨some owner⟩)
  relayOne r o c true .a
  let _ ← relay r o c
  let _ ← c.b.checkRecovery owner ⟨coin.amount, .str c.b.ibcDenom⟩
  recover c.b owner
  return owner

/-- Sends a coin on B to a splitter whose onward call fails, without naming an account that
recovers, and checks that the sender can recover it.  Gives the sender. -/
def sendDefaultRecovery (coin : Coin) : Act σ Text := do
  let receiver ← o.freshAddress c.a.definition.addressPrefix
  let sender := c.b.client.sender
  let splitter ← makeSplitter c.b [{ homeward c receiver with call := some onwardCall }]
  let _ ← send c.b splitter.address [coin] splitCall
  relayOne r o c false .b
  let _ ← c.b.checkRecovery sender coin
  recover c.b sender
  return sender

end Transfers

/-! ### Steps that change a campaign or its files -/

section Setup

variable {σ : Type}

/-- Installs contracts on both chains and checks that both are set up alike.  Both installs come to
their end before a failure of either counts; without one, both chains get their addresses. -/
def installSystem (contracts : Table Path) (directory : Option Path) :
    Act (Run σ) Unit := do
  let c := (← get).campaign
  let (atA, atB) ← Run.onSite (Act.awaitBoth
    (Bootstrap.setUp c.a.client c.a.name contracts directory)
    (Bootstrap.setUp c.b.client c.b.name contracts directory))
  Run.update fun c => { c with a := c.a.withAddresses atA, b := c.b.withAddresses atB }
  let c := (← get).campaign
  Run.onSite (Site.onOutside (Endpoint.checkConsistency c.a c.b))

/-- Opens a channel between the kernels and remembers it on both chains. -/
def openKernelChannel (r : Relayer σ) (o : Outside σ) : Act (Run σ) ChannelPair := do
  let c := (← get).campaign
  let kernelA ← Act.ofExcept c.a.kernel
  let kernelB ← Act.ofExcept c.b.kernel
  let (pair, link) ← Run.onSite (Site.onOutside
    (c.link.openChannel r o.sleep .a kernelA.port kernelB.port .unordered
      Settings.kernelChannelVersion Handshake.defaultAttempts Handshake.defaultBackoff))
  Run.update fun c => { c with
    a := { c.a with directChannel := pair.src.channel }
    b := { c.b with directChannel := pair.dest.channel }
    link, channel := some pair }
  return pair

/-- Publishes every application of a directory in the registry of a chain. -/
def publishOn (e : Endpoint σ) (directory : Path) (cacheDirectory : Option Path) :
    Act (Site σ) (Table Int) := do
  Bootstrap.publishAll e.client (← Act.ofExcept e.registry) directory cacheDirectory

/-- Publishes every application of a directory on both chains and checks that they have the same
code ids.  Gives their names. -/
def publishApplications (c : Campaign σ) (directory : Path) (cacheDirectory : Option Path) :
    Act (Site σ) (List Text) := do
  let _ ← Act.awaitBoth (publishOn c.a directory cacheDirectory)
    (publishOn c.b directory cacheDirectory)
  let names ← Site.ofFiles fun t => Wasm.applicationNames t directory
  Site.onOutside (Endpoint.checkCodeIds c.a c.b names)
  return names

end Setup

end Scenario

end CrossChain
