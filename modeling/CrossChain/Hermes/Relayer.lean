import CrossChain.Hermes.Output
import CrossChain.Relay.Relayer

/-!
# The hermes relayer

A relayer that runs the hermes command for everything it is asked.
-/

namespace CrossChain

variable [Json.Limits]

namespace Hermes

/-! ### Commands -/

/-- The arguments that open a connection. -/
def connectionCommand (a b : ChainDefinition) : List Json :=
  [text "create", text "connection", text "--a-chain", a.chainId, text "--b-chain", b.chainId]

/-- The arguments that open a channel from a side of a link. -/
def channelCommand (link : Link) (side : Side) (portA portB : Text) (order : Order)
    (version : Text) : List Json :=
  [.str "create", .str "channel", .str "--a-chain", .str (link.ends side).1.chainId,
    .str "--a-connection", link.connection side, .str "--a-port", .str portA,
    .str "--b-port", .str portB, .str "--order", .str order.name] ++
  if version.isEmpty then [] else [.str "--channel-version", .str version]

/-- The arguments that deliver packets from one chain to the other. -/
def receiveCommand (src dest : ChainDefinition) (srcEnd : ChannelEnd) : List Json :=
  [.str "tx", .str "packet-recv", .str "--dst-chain", .str dest.chainId,
    .str "--src-chain", .str src.chainId, .str "--src-port", .str srcEnd.port,
    .str "--src-channel", srcEnd.channel]

/-- The arguments that carry acknowledgements back to where packets came from. -/
def acknowledgeCommand (src dest : ChainDefinition) (destEnd : ChannelEnd) : List Json :=
  [.str "tx", .str "packet-ack", .str "--dst-chain", .str src.chainId,
    .str "--src-chain", .str dest.chainId, .str "--src-port", .str destEnd.port,
    .str "--src-channel", destEnd.channel]

/-- A command line, whose parts must all be texts. -/
def commandLine (binary : Text) (arguments : List Json) : Except Failure (List Text) := do
  let words ← arguments.mapM fun
    | .str s => .ok s
    | _ => .error .wrongKind
  return binary :: "--json" :: words

/-! ### Runs -/

section Runs

variable {σ : Type} (binary : Text) (run : List Text → Act σ ProcessResult)

/-- Runs hermes and gives its result. -/
def command (arguments : List Json) : Act σ Json := do
  let line ← Act.ofExcept (commandLine binary arguments)
  Act.ofExcept (← run line).result

/-- Opens a connection. -/
def createConnection (a b : ChainDefinition) : Act σ (Json × Json) := do
  let result ← command binary run (connectionCommand a b)
  Act.ofExcept (ofSides "connection_id" "connection result" result)

/-- Opens a channel from a side of a link. -/
def createChannel (link : Link) (side : Side) (portA portB : Text) (order : Order)
    (version : Text) : Act σ ChannelPair := do
  let result ← command binary run (channelCommand link side portA portB order version)
  let (x, y) ← Act.ofExcept
    (ofSides "channel_id" ("channel result on " ++ (link.ends side).2.chainId) result)
  return ⟨⟨portA, x⟩, ⟨portB, y⟩⟩

/-- Delivers what waits at the source end of a channel, and carries the acknowledgements back.
Gives how many packets were delivered, and their acknowledgements. -/
def relayDirection (src dest : ChainDefinition) (srcEnd destEnd : ChannelEnd) :
    Act σ (Nat × List Ack) := do
  let result ← command binary run (receiveCommand src dest srcEnd)
  let acks ← Act.ofExcept (acksOf srcEnd destEnd result)
  if !acks.isEmpty then
    let _ ← command binary run (acknowledgeCommand src dest destEnd)
  return (receivedCount result acks, acks)

/-- Moves what waits on either end of a channel, first from chain A. -/
def relayChannel (a b : ChainDefinition) (pair : ChannelPair) : Act σ RelayInfo := do
  let (fromA, acksB) ← relayDirection binary run a b pair.src pair.dest
  let (fromB, acksA) ← relayDirection binary run b a pair.dest pair.src
  return ⟨fromA, fromB, acksA, acksB⟩

/-- Moves what waits on either end of every channel of a link. -/
def relayAll (link : Link) : Act σ RelayInfo :=
  link.channels.foldlM
    (fun info pair => return info.merge (← relayChannel binary run link.chainA link.chainB pair)) {}

/-- Whether hermes finds itself healthy.  A run that could not be started counts as unhealthy. -/
def isReady : Act σ Bool := do
  match ← Act.attempt (command binary run [.str "health-check"]) with
  | .ok _ => return true
  | .error e => if e.isRelay || e.isSystem then return false else throw e

end Runs

end Hermes

/-- The relayer that runs the given hermes binary. -/
def Relayer.hermes {σ : Type} (binary : Text) (run : List Text → Act σ ProcessResult) :
    Relayer σ where
  answer
    | .createConnection a b => Hermes.createConnection binary run a b
    | .createChannel link side portA portB order version =>
      Hermes.createChannel binary run link side portA portB order version
    | .relayAll link => Hermes.relayAll binary run link
    | .isReady => Hermes.isReady binary run

end CrossChain
