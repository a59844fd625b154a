import CrossChain.Campaign
import CrossChain.Hermes.Relayer
import CrossChain.Rehearsal.Address
import CrossChain.Rehearsal.Chain
import CrossChain.Rehearsal.Reply

/-!
# Rehearsals

A world for rehearsals: two scripted chains, a scripted relayer, and queues of what processes print
and servers answer.  Nothing sleeps, random bytes count up, and everything is logged.
-/

namespace CrossChain

variable [Json.Limits]

/-- The next entry of a script: a value, or a failure. -/
abbrev Cue (α : Type) := Except Failure α

/-- What a scripted relayer does, in turn. -/
structure RelayerScript where
  connections : List (Cue (Json × Json)) := []
  channels : List (Cue (Json × Json)) := []
  sweeps : List (Cue RelayInfo) := []
  readiness : List (Cue Bool) := []

/-- The script with another one after it. -/
def RelayerScript.followedBy (s t : RelayerScript) : RelayerScript where
  connections := s.connections ++ t.connections
  channels := s.channels ++ t.channels
  sweeps := s.sweeps ++ t.sweeps
  readiness := s.readiness ++ t.readiness

/-- What happened outside. -/
inductive Event
  | run (command : List Text)
  | request (url : Text) (timeout : Binary64)
  | connect (chainId mnemonic : Text)
  deriving DecidableEq, Repr

/-- The world of a rehearsal. -/
structure World where
  chainA : ScriptedChain
  chainB : ScriptedChain
  script : RelayerScript := {}
  outputs : List (Cue ProcessResult) := []
  responses : List (Cue ScriptedReply) := []
  randomUses : Nat := 0
  calls : List RelayerCall := []
  events : List Event := []
  sleeps : List Binary64 := []

namespace World

/-- The world with nothing in its logs. -/
def forget (w : World) : World :=
  { w with
    chainA := { w.chainA with log := [] }
    chainB := { w.chainB with log := [] }
    calls := [], events := [], sleeps := [] }

/-- The first entry of a script and the rest, or something else when the script is over. -/
def nextCue {α : Type} (script : List (Cue α)) (otherwise : Cue α) : Cue α × List (Cue α) :=
  match script with
  | [] => (otherwise, [])
  | cue :: rest => (cue, rest)

/-- Notes an event. -/
def note (e : Event) : Act World Unit := modify fun w => { w with events := w.events ++ [e] }

/-! ### Chains -/

/-- The chain of a side. -/
def chain (side : Side) (w : World) : ScriptedChain := side.pick w.chainA w.chainB

/-- The world with another chain at a side. -/
def withChain (side : Side) (c : ScriptedChain) (w : World) : World :=
  match side with
  | .a => { w with chainA := c }
  | .b => { w with chainB := c }

/-- The client of the chain at a side. -/
def client (side : Side) (w : World) : ChainClient World where
  chainId := (w.chain side).chainId
  sender := (w.chain side).sender
  answer call := Act.on (chain side) (withChain side) (ScriptedChain.answer call)

/-- Connects to the chain with the definition's id. -/
def connect : Connect World := fun d mnemonic => do
  note (.connect d.chainId mnemonic)
  let w ← get
  if w.chainA.chainId == d.chainId then return w.client .a
  if w.chainB.chainId == d.chainId then return w.client .b
  throw (.value (.noClient d.chainId))

/-! ### The outside -/

/-- The world as the outside of a run. -/
def outside : Outside World where
  sleep time := modify fun w => { w with sleeps := w.sleeps ++ [time] }
  randomBytes count := do
    let w ← get
    set { w with randomUses := w.randomUses + 1 }
    return List.replicate count (UInt8.ofNat (w.randomUses + 1))
  addressOf := Bech32.write
  fetch url timeout := do
    note (.request url timeout)
    let w ← get
    let (cue, rest) := nextCue w.responses
      (.error (.request (.connection "no response scripted")))
    set { w with responses := rest }
    return (← Act.ofExcept cue).answer url
  run command := do
    note (.run command)
    let w ← get
    let (cue, rest) := nextCue w.outputs (.error (.file (.reported "no output scripted")))
    set { w with outputs := rest }
    Act.ofExcept cue
  connect := connect
  now := return .ofDecimal false 17000000009 (-1)

/-! ### The relayer -/

/-- Takes the next entry of one of the relayer's scripts. -/
def follow {α : Type} (queue : RelayerScript → List (Cue α))
    (withQueue : List (Cue α) → RelayerScript → RelayerScript) (otherwise : α) : Act World α := do
  let w ← get
  let (cue, rest) := nextCue (queue w.script) (.ok otherwise)
  set { w with script := withQueue rest w.script }
  Act.ofExcept cue

/-- What the scripted relayer does. -/
def followRelayer : (call : RelayerCall) → Act World call.Answer
  | .createConnection .. =>
    follow RelayerScript.connections (fun q s => { s with connections := q })
      (.str "connection-1", .str "connection-1")
  | .createChannel _ _ portA portB _ _ => do
    let (x, y) ← follow RelayerScript.channels (fun q s => { s with channels := q })
      (Json.str "channel-1", Json.str "channel-2")
    return ⟨⟨portA, x⟩, ⟨portB, y⟩⟩
  | .relayAll _ => follow RelayerScript.sweeps (fun q s => { s with sweeps := q }) {}
  | .isReady => follow RelayerScript.readiness (fun q s => { s with readiness := q }) true

/-- The scripted relayer. -/
def scriptedRelayer : Relayer World where
  answer call := do
    modify fun w => { w with calls := w.calls ++ [call] }
    followRelayer call

/-- The relayer of a rehearsal: hermes by the name of its binary, or the scripted one. -/
def relayer : Option Text → Relayer World
  | some binary => .hermes binary outside.run
  | none => scriptedRelayer

/-! ### The start -/

/-- The chain of a side as a rehearsal starts with it. -/
def startingEndpoint (w : World) (side : Side) (d : ChainDefinition)
    (contracts : Table Json) : Endpoint World :=
  let e : Endpoint World := {
    name := d.name, definition := d, client := w.client side
    ics20Channel := Settings.ics20Channel }
  e.withAddresses contracts

/-- The run that a rehearsal starts with. -/
def start (w : World) (files : FileTree) (a b : ChainDefinition)
    (contractsA contractsB : Table Json) (channels : List ChannelPair) : Run World where
  campaign := {
    a := w.startingEndpoint .a a contractsA
    b := w.startingEndpoint .b b contractsB
    link := {
      chainA := a, chainB := b, channels
      connectionA := .str Settings.existingConnection
      connectionB := .str Settings.existingConnection } }
  site := ⟨files, w⟩

end World

end CrossChain
