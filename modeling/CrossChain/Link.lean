import CrossChain.Settings

/-!
# Links

Two chains with a connection between them and the channels opened over it.  A channel is kept with
the end on chain A first, whichever side opened it.
-/

namespace CrossChain

/-! ### Sides and orders -/

/-- One of the two sides of a link. -/
inductive Side
  | a
  | b
  deriving DecidableEq, Repr

namespace Side

/-- The name of a side. -/
def name : Side → Text
  | a => "A"
  | b => "B"

/-- The side across. -/
def other : Side → Side
  | a => b
  | b => a

/-- The side of a name. -/
def ofName (s : Text) : Except Failure Side :=
  match [a, b].find? fun side => side.name == s with
  | some side => .ok side
  | none => .error (.value (.unknownSide s))

/-- The one of two things that belongs to a side. -/
def pick {α : Type} (side : Side) (atA atB : α) : α :=
  match side with
  | a => atA
  | b => atB

end Side

/-- Whether packets of a channel arrive in order. -/
inductive Order
  | unordered
  | ordered
  deriving DecidableEq, Repr

namespace Order

/-- The name of an order. -/
def name : Order → Text
  | unordered => "unordered"
  | ordered => "ordered"

/-- The order of a name. -/
def ofName (s : Text) : Except Failure Order :=
  match [unordered, ordered].find? fun order => order.name == s with
  | some order => .ok order
  | none => .error (.value (.unknownOrder s))

end Order

/-! ### Channels -/

/-- One end of a channel; the channel id is what the relayer reported. -/
structure ChannelEnd where
  port : Text
  channel : Json
  deriving Repr

/-- A channel by its two ends. -/
structure ChannelPair where
  src : ChannelEnd
  dest : ChannelEnd
  deriving Repr

/-- The same channel seen from the other end. -/
def ChannelPair.swap (p : ChannelPair) : ChannelPair := ⟨p.dest, p.src⟩

/-! ### Links -/

/-- Two chains with a connection and channels; the source of every channel is its end on chain
A. -/
structure Link where
  chainA : ChainDefinition
  chainB : ChainDefinition
  connectionA : Json
  connectionB : Json
  channels : List ChannelPair := []
  deriving Repr

namespace Link

/-- The chain of a side and the chain across. -/
def ends (link : Link) (side : Side) : ChainDefinition × ChainDefinition :=
  (side.pick link.chainA link.chainB, side.pick link.chainB link.chainA)

/-- The connection as the chain of a side knows it. -/
def connection (link : Link) (side : Side) : Json := side.pick link.connectionA link.connectionB

/-- The link with a channel more, given with the end of the opening side first. -/
def withChannel (link : Link) (side : Side) (pair : ChannelPair) : Link :=
  { link with channels := link.channels ++ [side.pick pair pair.swap] }

/-- The link seen from the other side. -/
def swap (link : Link) : Link :=
  ⟨link.chainB, link.chainA, link.connectionB, link.connectionA,
    link.channels.map ChannelPair.swap⟩

end Link

end CrossChain
