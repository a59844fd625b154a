import CrossChain.Relay.Relayer

/-!
# Handshakes

Connections and channels are opened by handshakes that are tried again as a whole when the relayer
fails, with a pause between two tries.  Any other failure ends the handshake at once.
-/

namespace CrossChain

namespace Handshake

/-- How often a handshake is tried. -/
def defaultAttempts : Int := 5

/-- The pause between two tries. -/
def defaultBackoff : Binary64 := .ofDecimal false 1 0

/-- Tries an act while the relayer fails, `left` times at most and with a pause between two tries.
Without a success the last of the relayer's messages is the answer. -/
def tryUpTo {σ α : Type} (pause : Act σ Unit) (act : Act σ α) :
    Nat → Option Text → Act σ (Except (Option Text) α)
  | 0, last => return .error last
  | left + 1, _ => do
    match ← Act.attempt act with
    | .ok a => return .ok a
    | .error (.relay fault) =>
      if left != 0 then pause
      tryUpTo pause act left (some fault.message)
    | .error e => throw e

/-- Tries an act while the relayer fails; `h` is what was to be opened. -/
def retried {σ α : Type} (sleep : Binary64 → Act σ Unit) (h : Handshake) (attempts : Int)
    (backoff : Binary64) (act : Act σ α) : Act σ α := do
  match ← tryUpTo (sleep backoff) act attempts.toNat none with
  | .ok a => return a
  | .error last => throw (.handshake h attempts last)

end Handshake

namespace Link

variable {σ : Type} (r : Relayer σ) (sleep : Binary64 → Act σ Unit)

/-- A link over an existing connection, if both of its names are given, or over a new one. -/
def establish (a b : ChainDefinition) (connectionA connectionB : Option Text)
    (attempts : Int) (backoff : Binary64) : Act σ Link := do
  match connectionA, connectionB with
  | some (c :: x), some (d :: y) =>
    return {
      chainA := a, chainB := b, connectionA := .str (c :: x), connectionB := .str (d :: y) }
  | _, _ =>
    let (x, y) ← Handshake.retried sleep (.connection a.name b.name) attempts backoff
      (r.createConnection a b)
    return { chainA := a, chainB := b, connectionA := x, connectionB := y }

/-- Opens a channel from a side of a link.  Gives the channel with the end of that side first, and
the link with the channel. -/
def openChannel (link : Link) (side : Side) (portA portB : Text) (order : Order) (version : Text)
    (attempts : Int) (backoff : Binary64) : Act σ (ChannelPair × Link) := do
  let pair ← Handshake.retried sleep (.channel portA portB) attempts backoff
    (r.createChannel link side portA portB order version)
  return (pair, link.withChannel side pair)

/-- Opens a channel from the side and in the order of the given names, which are read when the first
try is made. -/
def openChannelNamed (link : Link) (side : Text) (portA portB order version : Text)
    (attempts : Int) (backoff : Binary64) : Act σ (ChannelPair × Link) := do
  if attempts ≤ 0 then throw (.handshake (.channel portA portB) attempts none)
  let side ← Act.ofExcept (Side.ofName side)
  let order ← Act.ofExcept (Order.ofName order)
  link.openChannel r sleep side portA portB order version attempts backoff

end Link

end CrossChain
