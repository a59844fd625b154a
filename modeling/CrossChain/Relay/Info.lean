import CrossChain.Acknowledgement

/-!
# What a relay moved

Counts of the packets that left either chain, and the acknowledgements that were written on either.
Packets from one chain are acknowledged on the other.  Infos add up.
-/

namespace CrossChain

/-- An acknowledgement written on the receiving chain, with the packet it answers. -/
structure Ack where
  body : AckBody
  srcChannel : Json := .str []
  destChannel : Json := .str []
  sequence : Int := 0
  deriving Repr

/-- What was moved between two chains. -/
structure RelayInfo where
  packetsFromA : Int := 0
  packetsFromB : Int := 0
  acksFromA : List Ack := []
  acksFromB : List Ack := []
  deriving Repr

namespace RelayInfo

/-- What was moved by both of two relays. -/
def merge (x y : RelayInfo) : RelayInfo where
  packetsFromA := x.packetsFromA + y.packetsFromA
  packetsFromB := x.packetsFromB + y.packetsFromB
  acksFromA := x.acksFromA ++ y.acksFromA
  acksFromB := x.acksFromB ++ y.acksFromB

end RelayInfo

end CrossChain
