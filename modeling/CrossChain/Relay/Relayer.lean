import CrossChain.Act
import CrossChain.Link
import CrossChain.Relay.Info

/-!
# Relayers

A relayer opens connections and channels, moves packets, and says whether it is healthy.  It is
given by how it answers each call, and may change the state of the world it lives in.
-/

namespace CrossChain

/-- What is asked of a relayer. -/
inductive RelayerCall
  | createConnection (a b : ChainDefinition)
  | createChannel (link : Link) (side : Side) (portA portB : Text) (order : Order) (version : Text)
  | relayAll (link : Link)
  | isReady

/-- What a call is answered with: the two ends' names of a connection, a channel with the end of the
opening side first, what was moved, or whether the relayer is healthy. -/
def RelayerCall.Answer : RelayerCall → Type
  | createConnection .. => Json × Json
  | createChannel .. => ChannelPair
  | relayAll _ => RelayInfo
  | isReady => Bool

/-- A relayer over states of type `σ`. -/
structure Relayer (σ : Type) where
  answer : (c : RelayerCall) → Act σ c.Answer

namespace Relayer

variable {σ : Type} (r : Relayer σ)

/-- Opens a connection. -/
def createConnection (a b : ChainDefinition) : Act σ (Json × Json) :=
  r.answer (.createConnection a b)

/-- Opens a channel from a side of a link. -/
def createChannel (link : Link) (side : Side) (portA portB : Text) (order : Order)
    (version : Text) : Act σ ChannelPair :=
  r.answer (.createChannel link side portA portB order version)

/-- Moves every packet that waits on either end of a link. -/
def relayAll (link : Link) : Act σ RelayInfo := r.answer (.relayAll link)

/-- Whether the relayer is healthy. -/
def isReady : Act σ Bool := r.answer .isReady

end Relayer

end CrossChain
