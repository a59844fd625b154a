import CrossChain.Envelope

/-!
# Contract messages

What the contracts of the operating system understand: every message is an object with one member,
named for the message.  Beside the messages stand the bodies that contracts are instantiated with.
-/

namespace CrossChain

/-- A message to the kernel or to the registry of applications. -/
inductive ContractMessage
  | send (message : RoutedMessage)
  | receive (packet : Packet)
  | recover
  | assignChannels (ics20 kernel : Json) (chain : Text) (direct : Json)
  | upsertKeyAddress (key : Text) (value : Json)
  | keyAddress (key : Text)
  | channelInfo (chain : Text)
  | recoveries (address : Json)
  | publish (codeId : Int) (name version : Text)
  | codeId (key : Text)

namespace ContractMessage

/-- The name of a message. -/
def tag : ContractMessage → Text
  | send _ => "send"
  | receive _ => "amp_receive"
  | recover => "recover"
  | assignChannels .. => "assign_channels"
  | upsertKeyAddress .. => "upsert_key_address"
  | keyAddress _ => "key_address"
  | channelInfo _ => "channel_info"
  | recoveries _ => "recoveries"
  | publish .. => "publish"
  | codeId _ => "code_id"

/-- What a message says. -/
def body : ContractMessage → Json
  | send m => .obj [("message", m.toJson)]
  | receive p => p.toJson
  | recover => .obj []
  | assignChannels ics20 kernel chain direct =>
    .obj [("ics20_channel_id", ics20), ("kernel_address", kernel), ("chain", .str chain),
      ("direct_channel_id", direct)]
  | upsertKeyAddress key value => .obj [("key", .str key), ("value", value)]
  | keyAddress key => .obj [("key", .str key)]
  | channelInfo chain => .obj [("chain", .str chain)]
  | recoveries address => .obj [("addr", address)]
  | publish code name version =>
    .obj [("code_id", .int code), ("ado_type", .str name), ("version", .str version)]
  | codeId key => .obj [("key", .str key)]

/-- The object of a message. -/
def toJson (m : ContractMessage) : Json := .single m.tag m.body

end ContractMessage

/-! ### Instantiation -/

/-- One of the recipients among whom a splitter divides what it gets. -/
structure SplitterRecipient where
  address : Text
  call : Option Text := none
  recoveryAddress : Option Text := none
  percent : Text := "1"
  deriving DecidableEq, Repr

/-- The object of a splitter's recipient; what is absent has no member. -/
def SplitterRecipient.toJson (r : SplitterRecipient) : Json :=
  .obj [("recipient", .obj (("address", .str r.address) ::
      (Json.member? "msg" (r.call.map Json.str) ++
        Json.member? "ibc_recovery_address" (r.recoveryAddress.map Json.str)))),
    ("percent", .str r.percent)]

/-- The body that a contract is instantiated with. -/
inductive Instantiation
  | kernel (chain : Text) (owner : Option Text)
  | sibling (kernel : Json) (owner : Option Text)
  | splitter (kernel : Json) (recipients : List SplitterRecipient)

namespace Instantiation

/-- The object of a body. -/
def toJson : Instantiation → Json
  | kernel chain owner => .obj [("chain_name", .str chain), ("owner", .ofText? owner)]
  | sibling address owner => .obj [("kernel_address", address), ("owner", .ofText? owner)]
  | splitter address recipients =>
    .obj [("kernel_address", address),
      ("recipients", .arr (recipients.map SplitterRecipient.toJson))]

/-- The name of a kind of body. -/
def kindName : Instantiation → Text
  | kernel .. => "KernelInstantiate"
  | sibling .. => "SiblingInstantiate"
  | splitter .. => "SplitterInstantiate"

end Instantiation

/-! ### What may be handed to a contract -/

/-- What somebody hands to a contract: a message, a plain value, or by mistake a body. -/
inductive Handed
  | message (m : ContractMessage)
  | plain (v : Json)
  | body (b : Instantiation)

/-- The object that goes to the contract: a message in its wire form, and a plain object as it is.
Nothing else is a message. -/
def Handed.toJson : Handed → Except Failure Json
  | message m => .ok m.toJson
  | plain (.obj ms) => .ok (.obj ms)
  | plain v => .error (.notAMessage v.kindName)
  | body b => .error (.notAMessage b.kindName)

end CrossChain
