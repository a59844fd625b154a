import CrossChain.Denom
import CrossChain.Outside
import CrossChain.Relay.Handshake
import CrossChain.Site

/-!
# Campaigns

A campaign is what the steps of a run share: two chains, the link between them, and the channel that
the kernels opened over it.
-/

namespace CrossChain

/-- Two chains and what connects them. -/
structure Campaign (σ : Type) where
  a : Endpoint σ
  b : Endpoint σ
  link : Link
  channel : Option ChannelPair := none

namespace Campaign

variable {σ : Type}

/-- The chain of a side. -/
def endpoint (c : Campaign σ) (side : Side) : Endpoint σ := side.pick c.a c.b

/-- The chain across. -/
def counterparty (c : Campaign σ) (side : Side) : Endpoint σ := side.pick c.b c.a

/-- The campaign with another chain at a side. -/
def withEndpoint (c : Campaign σ) (side : Side) (e : Endpoint σ) : Campaign σ :=
  match side with
  | .a => { c with a := e }
  | .b => { c with b := e }

/-- The channel for plain transfers that both chains start with. -/
def transferChannel (a b : ChainDefinition) : ChannelPair :=
  ⟨⟨a.ics20Port, .str Settings.ics20Channel⟩, ⟨b.ics20Port, .str Settings.ics20Channel⟩⟩

/-- A chain at the start, with the denomination that the other chain's fee token has on it. -/
def startingEndpoint (d other : ChainDefinition) (client : ChainClient σ) :
    Except Failure (Endpoint σ) :=
  return {
    name := d.name
    definition := d
    client
    ics20Channel := Settings.ics20Channel
    ibcDenom := ← Denom.afterHop d.ics20Port Settings.ics20Channel other.denomFee }

/-- Connects to both chains and links them, over an existing connection if its names are given. -/
def start (r : Relayer σ) (o : Outside σ) (a b : ChainDefinition) (mnemonic : Text)
    (connectionA connectionB : Option Text) : Act σ (Campaign σ) := do
  let (clientA, clientB) ← Act.awaitBoth (o.connect a mnemonic) (o.connect b mnemonic)
  let endA ← Act.ofExcept (startingEndpoint a b clientA)
  let endB ← Act.ofExcept (startingEndpoint b a clientB)
  let link ← Link.establish r o.sleep a b connectionA connectionB Handshake.defaultAttempts
    Handshake.defaultBackoff
  return { a := endA, b := endB, link := link.withChannel .a (transferChannel a b) }

end Campaign

/-! ### Runs -/

/-- A campaign in the course of a run, at a site. -/
structure Run (σ : Type) where
  campaign : Campaign σ
  site : Site σ

namespace Run

/-- An act at the site. -/
def onSite {σ α : Type} (x : Act (Site σ) α) : Act (Run σ) α :=
  Act.on Run.site (fun site s => { s with site }) x

instance {σ : Type} : MonadLift (Act (Site σ)) (Act (Run σ)) := ⟨onSite⟩

/-- Changes the campaign. -/
def update {σ : Type} (f : Campaign σ → Campaign σ) : Act (Run σ) Unit :=
  modify fun s => { s with campaign := f s.campaign }

end Run

end CrossChain
