import CrossChain.Hermes.Relayer
import CrossChain.Proofs.Act
import CrossChain.Relay.Handshake

/-!
# Links seen from the other side

Neither side of a link is special.  A channel is opened from a side of a link by the very runs of
hermes that open it from the other side of the mirrored link (`createChannel_swap`).  A sweep of the
mirrored link delivers from chain B first, so it can only be compared where the answers of hermes do
not depend on what was run before (`Act.Steady`); it then tells the mirror image of what the sweep
of the link tells (`mirrored_relayAll`).
-/

namespace CrossChain

/-! ## Mirror images -/

theorem Side.ofName_name (side : Side) : Side.ofName side.name = .ok side := by
  cases side <;> rfl

namespace Link

theorem ends_swap (link : Link) (side : Side) : link.swap.ends side.other = link.ends side := by
  cases side <;> rfl

theorem connection_swap (link : Link) (side : Side) :
    link.swap.connection side.other = link.connection side := by cases side <;> rfl

theorem withChannel_swap (link : Link) (side : Side) (pair : ChannelPair) :
    link.swap.withChannel side.other pair = (link.withChannel side pair).swap := by
  simp only [withChannel, swap, List.map_append, List.map_singleton]
  cases side <;> rfl

end Link

/-- What was moved, told from the other side. -/
def RelayInfo.swap (info : RelayInfo) : RelayInfo :=
  ⟨info.packetsFromB, info.packetsFromA, info.acksFromB, info.acksFromA⟩

/-! ## Steady acts -/

namespace Act

variable {σ α β γ : Type}

/-- An act that changes nothing and ends the same wherever it starts. -/
def Steady (x : Act σ α) : Prop := ∃ r, x = ofExcept r

theorem steady_pure (a : α) : Steady (pure a : Act σ α) := ⟨.ok a, rfl⟩

theorem steady_ofExcept (r : Except Failure α) : Steady (ofExcept r : Act σ α) := ⟨r, rfl⟩

theorem Steady.bind {x : Act σ α} {f : α → Act σ β} (hx : Steady x) (hf : ∀ a, Steady (f a)) :
    Steady (x >>= f) := by
  obtain ⟨r, rfl⟩ := hx
  cases r with
  | ok a => exact hf a
  | error e => exact ⟨.error e, rfl⟩

end Act

namespace Hermes

variable {σ : Type}

/-! ## Channels -/

section Channels

variable (binary : Text) (run : List Text → Act σ ProcessResult) (link : Link) (side : Side)

theorem channelCommand_swap (portA portB : Text) (order : Order) (version : Text) :
    channelCommand link.swap side.other portA portB order version =
      channelCommand link side portA portB order version := by
  rw [channelCommand, channelCommand, link.ends_swap, link.connection_swap]

theorem createChannel_swap [Json.Limits] (portA portB : Text) (order : Order) (version : Text) :
    createChannel binary run link.swap side.other portA portB order version =
      createChannel binary run link side portA portB order version := by
  rw [createChannel, createChannel, channelCommand_swap, link.ends_swap]

theorem openChannel_swap [Json.Limits] (sleep : Binary64 → Act σ Unit) (portA portB : Text)
    (order : Order) (version : Text) (attempts : Int) (backoff : Binary64) :
    link.swap.openChannel (Relayer.hermes binary run) sleep side.other portA portB order version
        attempts backoff =
      (fun p => (p.1, p.2.swap)) <$> link.openChannel (Relayer.hermes binary run) sleep side portA
        portB order version attempts backoff := by
  have hcreate : (Relayer.hermes binary run).createChannel link.swap side.other portA portB order
      version = (Relayer.hermes binary run).createChannel link side portA portB order version :=
    createChannel_swap binary run link side portA portB order version
  rw [Link.openChannel, Link.openChannel, hcreate, map_bind]
  simp only [link.withChannel_swap, map_pure]

/-- A channel is opened from the other side of the mirrored link by the same runs of hermes, with
the same answer or failure; the channel lists then still mirror each other. -/
theorem openChannelNamed_swap [Json.Limits] (sleep : Binary64 → Act σ Unit)
    (portA portB order version : Text) (attempts : Int) (backoff : Binary64) :
    link.swap.openChannelNamed (Relayer.hermes binary run) sleep side.other.name portA portB order
        version attempts backoff =
      (fun p => (p.1, p.2.swap)) <$> link.openChannelNamed (Relayer.hermes binary run) sleep
        side.name portA portB order version attempts backoff := by
  rw [Link.openChannelNamed, Link.openChannelNamed, Side.ofName_name, Side.ofName_name]
  split
  · rfl
  · cases hread : Order.ofName order with
    | error e => rfl
    | ok order =>
      exact openChannel_swap binary run link side sleep portA portB order version attempts backoff

end Channels

/-! ## Sweeps -/

section Sweeps

/-- Acts that end well in the same cases, in the same state and with mirrored answers. -/
def Mirrored (x y : Act σ RelayInfo) : Prop :=
  ∀ s info t, x s = .ok info t ↔ y s = .ok info.swap t

theorem mirrored_pure (info : RelayInfo) :
    Mirrored (pure info : Act σ RelayInfo) (pure info.swap) := by
  intro s info' t
  constructor
  · intro h
    cases h
    rfl
  · intro h
    obtain ⟨hinfo, rfl⟩ := EStateM.Result.ok.inj h
    have hsame : info = info' := congrArg RelayInfo.swap hinfo
    rw [hsame]
    rfl

theorem Mirrored.bind {x y : Act σ RelayInfo} {f g : RelayInfo → Act σ RelayInfo}
    (hx : Mirrored x y) (hf : ∀ info, Mirrored (f info) (g info.swap)) :
    Mirrored (x >>= f) (y >>= g) := by
  intro s info t
  constructor
  · intro h
    obtain ⟨moved, u, hmoved, hrest⟩ := Act.bind_eq_ok h
    rw [Act.bind_run_ok ((hx s moved u).1 hmoved)]
    exact (hf moved u info t).1 hrest
  · intro h
    obtain ⟨moved, u, hmoved, hrest⟩ := Act.bind_eq_ok h
    rw [Act.bind_run_ok ((hx s moved.swap u).2 hmoved)]
    exact (hf moved.swap u info t).2 hrest

theorem mirrored_foldlM {f g : RelayInfo → ChannelPair → Act σ RelayInfo}
    (h : ∀ info pair, Mirrored (f info pair) (g info.swap pair.swap)) :
    ∀ (channels : List ChannelPair) (info : RelayInfo),
      Mirrored (channels.foldlM f info) ((channels.map ChannelPair.swap).foldlM g info.swap)
  | [], info => mirrored_pure info
  | pair :: channels, info => by
    rw [List.map_cons, List.foldlM_cons, List.foldlM_cons]
    exact (h info pair).bind fun moved => mirrored_foldlM h channels moved

variable {binary : Text} {run : List Text → Act σ ProcessResult}
  (hrun : ∀ line, (run line).Steady)

include hrun

theorem steady_command [Json.Limits] (arguments : List Json) :
    (command binary run arguments).Steady :=
  (Act.steady_ofExcept _).bind fun line => (hrun line).bind fun _ => Act.steady_ofExcept _

theorem steady_relayDirection [Json.Limits] (src dest : ChainDefinition)
    (srcEnd destEnd : ChannelEnd) :
    (relayDirection binary run src dest srcEnd destEnd).Steady := by
  refine (steady_command hrun _).bind fun result => (Act.steady_ofExcept _).bind fun acks => ?_
  cases acks with
  | nil => exact Act.steady_pure _
  | cons ack rest => exact (steady_command hrun _).bind fun _ => Act.steady_pure _

/-- Over the mirrored channel the same two deliveries are made, the second one first; as neither
depends on the other, both succeed there if they do here. -/
theorem mirrored_relayChannel [Json.Limits] (a b : ChainDefinition) (pair : ChannelPair) :
    Mirrored (relayChannel binary run a b pair) (relayChannel binary run b a pair.swap) := by
  obtain ⟨fromA, hfromA⟩ : (relayDirection binary run a b pair.src pair.dest).Steady :=
    steady_relayDirection hrun a b pair.src pair.dest
  obtain ⟨fromB, hfromB⟩ : (relayDirection binary run b a pair.dest pair.src).Steady :=
    steady_relayDirection hrun b a pair.dest pair.src
  have hchannel : relayChannel binary run a b pair =
      Act.ofExcept fromA >>= fun x => Act.ofExcept fromB >>= fun y =>
        pure ⟨x.1, y.1, y.2, x.2⟩ := by
    rw [relayChannel, hfromA, hfromB]
  have hmirrored : relayChannel binary run b a pair.swap =
      Act.ofExcept fromB >>= fun y => Act.ofExcept fromA >>= fun x =>
        pure ⟨y.1, x.1, x.2, y.2⟩ := by
    rw [relayChannel, ChannelPair.swap, hfromA, hfromB]
  rw [hchannel, hmirrored]
  cases fromA with
  | ok x =>
    cases fromB with
    | ok y => exact mirrored_pure ⟨x.1, y.1, y.2, x.2⟩
    | error e => exact fun s info t => ⟨nofun, nofun⟩
  | error e =>
    cases fromB with
    | ok y => exact fun s info t => ⟨nofun, nofun⟩
    | error e' => exact fun s info t => ⟨nofun, nofun⟩

theorem mirrored_relayAll [Json.Limits] (link : Link) :
    Mirrored (relayAll binary run link) (relayAll binary run link.swap) :=
  mirrored_foldlM
    (fun info pair => (mirrored_relayChannel hrun link.chainA link.chainB pair).bind fun moved =>
      mirrored_pure (info.merge moved)) link.channels {}

end Sweeps

/-! ## The law -/

/-- The two sides of a link are alike.  A channel is opened from a side of a link by the same runs
of hermes as from the other side of the mirrored link, with the same pair or failure, and leaves two
links that mirror each other; and where hermes answers by its command line alone, a sweep of the
mirrored link ends well whenever the sweep of the link does, and tells its mirror image. -/
theorem sides_alike [Json.Limits] (binary : Text) (link : Link) :
    (∀ (run : List Text → Act σ ProcessResult) (side : Side) (portA portB : Text) (order : Order)
      (version : Text),
      createChannel binary run link.swap side.other portA portB order version =
        createChannel binary run link side portA portB order version) ∧
    (∀ (run : List Text → Act σ ProcessResult) (sleep : Binary64 → Act σ Unit) (side : Side)
      (portA portB order version : Text) (attempts : Int) (backoff : Binary64),
      link.swap.openChannelNamed (Relayer.hermes binary run) sleep side.other.name portA portB
          order version attempts backoff =
        (fun p => (p.1, p.2.swap)) <$> link.openChannelNamed (Relayer.hermes binary run) sleep
          side.name portA portB order version attempts backoff) ∧
    ∀ (answer : List Text → Except Failure ProcessResult) (s : σ) (info : RelayInfo) (t : σ),
      relayAll binary (fun line => Act.ofExcept (answer line)) link s = .ok info t ↔
        relayAll binary (fun line => Act.ofExcept (answer line)) link.swap s = .ok info.swap t :=
  ⟨fun run side => createChannel_swap binary run link side,
    fun run sleep side => openChannelNamed_swap binary run link side sleep,
    fun answer => mirrored_relayAll (fun line => Act.steady_ofExcept (answer line)) link⟩

end Hermes

end CrossChain
