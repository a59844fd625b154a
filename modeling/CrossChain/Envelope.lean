import CrossChain.Funds
import CrossChain.Json.Printer

/-!
# Envelopes

A routed message carries funds and an optional call to a recipient.  Recipients of the form
`ibc://<chain>/<path>` are delivered on the named chain, all others on the chain the message starts
on.  The call travels as JSON in base64, and several messages travel as a packet that remembers who
sent them.
-/

namespace CrossChain

variable [Json.Limits]

/-! ### Binary bodies -/

namespace BinaryBody

/-- The text of a value in a contract's binary field: its compact JSON in base64. -/
def wrap (v : Json) : Text := Base64.encode (v.compact.flatMap Utf8.encodePoint)

/-- A value as a contract's binary field, if it can be written. -/
def encode (v : Json) : Except Failure Text :=
  if v.isWritable then .ok (wrap v) else .error (.value .unwritable)

/-- The value of a binary field. -/
def decode (s : Text) : Except Failure Json := do
  if !s.all CodePoint.isAscii then throw (.value .notAscii)
  let bytes ← (Base64.decode s).mapError fun f => Failure.value (.base64 f)
  Json.parse (← Text.ofUtf8 bytes)

end BinaryBody

/-! ### Recipients -/

namespace Recipient

/-- What a recipient on another chain starts with. -/
def scheme : Text := "ibc://"

/-- The recipient of a path on another chain. -/
def remote (chain path : Text) : Text := scheme ++ chain ++ "/" ++ path.stripLeft (· == 47)

/-- Whether a recipient is on another chain. -/
def isRemote (recipient : Text) : Bool := scheme.isPrefixOf recipient

/-- The chain that a recipient names, if it names one, and its path there. -/
def split (recipient : Text) : Option Text × Text :=
  if isRemote recipient then
    let (chain, path) := Text.cutAt 47 (recipient.drop scheme.length)
    (some chain, path)
  else (none, recipient)

end Recipient

/-! ### Messages -/

/-- When the sender wants to hear of a call. -/
inductive ReplyOn
  | error
  | always
  | never
  | success
  deriving DecidableEq, Repr

namespace ReplyOn

/-- The name on the wire. -/
def name : ReplyOn → Text
  | error => "error"
  | always => "always"
  | never => "never"
  | success => "success"

/-- The choice of a name. -/
def ofName (s : Text) : Except Failure ReplyOn :=
  match [error, always, never, success].find? fun r => r.name == s with
  | some r => .ok r
  | none => .error (.value (.unknownReply s))

end ReplyOn

/-- Who may recover funds that come back; nobody in particular when no address is given. -/
structure RecoveryConfig where
  address : Option Text
  deriving DecidableEq, Repr

/-- The object of a recovery configuration. -/
def RecoveryConfig.toJson (c : RecoveryConfig) : Json :=
  match c.address with
  | none => .obj []
  | some address => .obj [("recovery_addr", .str address)]

/-- How a message is to be executed. -/
structure MessageConfig where
  replyOn : ReplyOn := .error
  exitAtError : Bool := false
  direct : Bool := true
  gasLimit : Option Int := none
  recovery : Option RecoveryConfig := none
  deriving DecidableEq, Repr

/-- The object of a configuration; what is absent has no member. -/
def MessageConfig.toJson (c : MessageConfig) : Json :=
  .obj (("reply_on", .str c.replyOn.name) :: ("exit_at_error", .bool c.exitAtError) ::
    ("direct", .bool c.direct) :: (Json.member? "gas_limit" (c.gasLimit.map Json.int) ++
      Json.member? "ibc_config" (c.recovery.map RecoveryConfig.toJson)))

/-- A routed message; its call is empty for a plain transfer. -/
structure RoutedMessage where
  recipient : Text
  call : Text := []
  funds : List Coin := []
  config : MessageConfig := {}
  deriving Repr

namespace RoutedMessage

/-- Whether the message leaves the chain. -/
def isRemote (m : RoutedMessage) : Bool := Recipient.isRemote m.recipient

/-- Whether the message carries a call. -/
def hasCall (m : RoutedMessage) : Bool := !m.call.isEmpty

/-- The object of a message. -/
def toJson (m : RoutedMessage) : Json :=
  .obj [("recipient", .str m.recipient), ("message", .str m.call),
    ("funds", .arr (m.funds.map Coin.toJson)), ("config", m.config.toJson)]

/-- The call of a body; an empty body is no call. -/
def callOf (body : Json) : Except Failure Text :=
  if body.isEmpty then .ok [] else BinaryBody.encode body

/-- A message that is executed directly, replies on errors and does not stop at one, so that a
failing call leaves the rest of its packet alone. -/
def routed (recipient : Text) (body : Json) (funds : List GivenCoin)
    (recovery : Option RecoveryConfig) : Except Failure RoutedMessage := do
  let call ← callOf body
  let funds ← Funds.read funds
  return { recipient, call, funds, config := { recovery } }

end RoutedMessage

/-! ### Packets -/

/-- Where a packet comes from. -/
structure PacketOrigin where
  origin : Text
  previousSender : Text
  id : Int := 0
  deriving DecidableEq, Repr

/-- Messages that travel together. -/
structure Packet where
  messages : List RoutedMessage
  origin : PacketOrigin
  deriving Repr

namespace Packet

/-- The object of a packet. -/
def toJson (p : Packet) : Json :=
  .obj [("messages", .arr (p.messages.map RoutedMessage.toJson)),
    ("ctx", .obj [("origin", .str p.origin.origin),
      ("previous_sender", .str p.origin.previousSender), ("id", .int p.origin.id)])]

/-- The packet that a sender starts. -/
def startedBy (sender : Text) (messages : List RoutedMessage) : Packet :=
  ⟨messages, { origin := sender, previousSender := sender }⟩

end Packet

end CrossChain
