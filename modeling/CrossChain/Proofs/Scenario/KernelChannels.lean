import CrossChain.Hermes.Relayer
import CrossChain.Proofs.Bootstrap.Setup
import CrossChain.Proofs.Link.Openings
import CrossChain.Proofs.Scenario.Vouchers
import CrossChain.Scenario
import Mathlib.Logic.Function.Basic

/-!
# Channels between kernels

A call that opens a channel between the kernels of a campaign changes four things together, or none
of them: the channels of the link, the channel that the campaign remembers, and the channel that
either chain knows (`openKernelChannel_outcome`).  So after any number of calls all four tell of the
last channel that was opened (`openKernelChannels_run`).  Kernels that are then told of each other
have the end of that channel on their own chain (`assignAllChannels_of_stores`).
-/

namespace CrossChain

variable {σ : Type}

/-! ## Relayers and ports -/

/-- A relayer that opens channels between the ports that it is asked for. -/
def Relayer.KeepsPorts (r : Relayer σ) : Prop :=
  ∀ {link side portA portB order version s pair t},
    r.createChannel link side portA portB order version s = .ok pair t →
      pair.src.port = portA ∧ pair.dest.port = portB

theorem Hermes.keepsPorts [Json.Limits] (binary : Text) (run : List Text → Act σ ProcessResult) :
    (Relayer.hermes binary run).KeepsPorts := by
  intro link side portA portB order version s pair t h
  obtain ⟨result, u, -, hrest⟩ := Act.bind_eq_ok h
  obtain ⟨ids, v, -, hpair⟩ := Act.bind_eq_ok hrest
  cases hpair
  exact ⟨rfl, rfl⟩

/-- A channel that comes to a link is one that the relayer answered. -/
theorem Link.openChannel_eq_ok {r : Relayer σ} {sleep : Binary64 → Act σ Unit} {link link' : Link}
    {side : Side} {portA portB version : Text} {order : Order} {attempts : Int}
    {backoff : Binary64} {s t : σ} {pair : ChannelPair}
    (h : link.openChannel r sleep side portA portB order version attempts backoff s =
      .ok (pair, link') t) :
    link' = link.withChannel side pair ∧
      ∃ u, r.createChannel link side portA portB order version u = .ok pair t := by
  let anywhere : σ → σ → Prop := fun _ _ => True
  have : Std.Refl anywhere := ⟨fun _ => trivial⟩
  have : IsTrans σ anywhere := ⟨fun _ _ _ _ _ => trivial⟩
  have hwithin : ∀ {α : Type} (x : Act σ α), Act.Within anywhere x := fun _ _ => trivial
  obtain ⟨pair', u, hretried, hend⟩ := Act.bind_eq_ok h
  cases hend
  obtain ⟨v, -, hcreated⟩ :=
    Handshake.retried_eq_ok (fun backoff => hwithin (sleep backoff)) (hwithin _) hretried
  exact ⟨rfl, v, hcreated⟩

/-! ## One call -/

namespace Run

theorem onOutside_run_ok {α : Type} {x : Act σ α} {s : Run σ} {a : α} {t : σ}
    (h : x s.site.outside = .ok a t) :
    onSite (Site.onOutside x) s = .ok a ⟨s.campaign, ⟨s.site.files, t⟩⟩ := by
  rw [onSite, Act.on, Site.onOutside_run_ok h]

theorem onOutside_run_error {α : Type} {x : Act σ α} {s : Run σ} {e : Failure} {t : σ}
    (h : x s.site.outside = .error e t) :
    onSite (Site.onOutside x) s = .error e ⟨s.campaign, ⟨s.site.files, t⟩⟩ := by
  rw [onSite, Act.on, Site.onOutside_run_error h]

end Run

/-- The campaign with one more channel, between its kernels: the link has it, the campaign remembers
it, and either chain knows its own end. -/
def Campaign.withKernelChannel (c : Campaign σ) (pair : ChannelPair) : Campaign σ :=
  { c with
    a := { c.a with directChannel := pair.src.channel }
    b := { c.b with directChannel := pair.dest.channel }
    link := c.link.withChannel .a pair
    channel := some pair }

/-- What a call that opens a channel between the kernels leaves of a campaign. -/
def Campaign.afterOpening (c : Campaign σ) : Except Failure ChannelPair → Campaign σ
  | .ok pair => c.withKernelChannel pair
  | .error _ => c

namespace Scenario

section Opening

variable (r : Relayer σ) (o : Outside σ) {s : Run σ} {kernelA kernelB : Contract}

theorem openKernelChannel_outcome (hA : s.campaign.a.kernel = .ok kernelA)
    (hB : s.campaign.b.kernel = .ok kernelB) :
    ∃ result outside,
      (openKernelChannel r o).outcome s =
        (result, ⟨s.campaign.afterOpening result, ⟨s.site.files, outside⟩⟩) ∧
      ∀ pair, result = .ok pair → ∃ before,
        r.createChannel s.campaign.link .a kernelA.port kernelB.port .unordered
          Settings.kernelChannelVersion before = .ok pair outside := by
  cases h : s.campaign.link.openChannel r o.sleep .a kernelA.port kernelB.port .unordered
      Settings.kernelChannelVersion Handshake.defaultAttempts Handshake.defaultBackoff
      s.site.outside with
  | error e outside =>
    refine ⟨.error e, outside, Act.outcome_error ?_, fun _ h => by cases h⟩
    rw [openKernelChannel, Act.get_bind]
    simp only [hA, hB, Act.ofExcept_ok, pure_bind]
    rw [Act.bind_run_error (Run.onOutside_run_error h)]
    rfl
  | ok opened outside =>
    obtain ⟨pair, link⟩ := opened
    obtain ⟨rfl, before, hcreated⟩ := Link.openChannel_eq_ok h
    refine ⟨.ok pair, outside, Act.outcome_ok ?_, ?_⟩
    · rw [openKernelChannel, Act.get_bind]
      simp only [hA, hB, Act.ofExcept_ok, pure_bind]
      rw [Act.bind_run_ok (Run.onOutside_run_ok h)]
      rfl
    · rintro _ ⟨⟩
      exact ⟨before, hcreated⟩

end Opening

/-! ## Any number of calls -/

/-- Opens a channel between the kernels a number of times, whether the calls succeed or fail, and
gives how each of them ended. -/
def openKernelChannels (r : Relayer σ) (o : Outside σ) :
    Nat → Act (Run σ) (List (Except Failure ChannelPair))
  | 0 => return []
  | n + 1 => do
    let ended ← Act.attempt (openKernelChannel r o)
    return ended :: (← openKernelChannels r o n)

/-- The channels of the calls that succeeded. -/
def opened (ends : List (Except Failure ChannelPair)) : List ChannelPair :=
  ends.filterMap Except.toOption

section Openings

variable {c : Campaign σ}

/-- Calls that fail make no difference. -/
theorem foldl_afterOpening (ends : List (Except Failure ChannelPair)) :
    ends.foldl Campaign.afterOpening c = (opened ends).foldl Campaign.withKernelChannel c := by
  induction ends generalizing c with
  | nil => rfl
  | cons ended rest ih =>
    rw [List.foldl_cons, ih]
    cases ended <;> rfl

theorem link_foldl (pairs : List ChannelPair) :
    (pairs.foldl Campaign.withKernelChannel c).link =
      { c.link with channels := c.link.channels ++ pairs } := by
  induction pairs generalizing c with
  | nil => exact congrArg (fun channels => { c.link with channels }) (List.append_nil _).symm
  | cons pair rest ih =>
    rw [List.foldl_cons, ih, List.append_cons]
    rfl

theorem endpoint_foldl (pairs : List ChannelPair) (side : Side) (channel : Json) :
    { (pairs.foldl Campaign.withKernelChannel c).endpoint side with directChannel := channel } =
      { c.endpoint side with directChannel := channel } := by
  induction pairs generalizing c with
  | nil => rfl
  | cons pair rest ih =>
    rw [List.foldl_cons, ih]
    cases side <;> rfl

/-- The last channel that was opened is the one that the campaign remembers, and either chain knows
its own end of it. -/
theorem foldl_concat (earlier : List ChannelPair) (last : ChannelPair) :
    ((earlier ++ [last]).foldl Campaign.withKernelChannel c).channel = some last ∧
      ∀ side, ((earlier ++ [last]).foldl Campaign.withKernelChannel c).endpoint side =
        { c.endpoint side with directChannel := (last.endOn side).channel } := by
  rw [List.foldl_append, List.foldl_cons, List.foldl_nil]
  refine ⟨rfl, fun side => ?_⟩
  rw [← endpoint_foldl earlier]
  cases side <;> rfl

variable (r : Relayer σ) (o : Outside σ) {kernelA kernelB : Contract}

/-- Calls that open channels between the kernels, one after the other. -/
theorem openKernelChannels_run (n : Nat) {s : Run σ} (hA : s.campaign.a.kernel = .ok kernelA)
    (hB : s.campaign.b.kernel = .ok kernelB) :
    ∃ ends outside,
      openKernelChannels r o n s =
        .ok ends ⟨ends.foldl Campaign.afterOpening s.campaign, ⟨s.site.files, outside⟩⟩ ∧
      ends.length = n ∧
      ∀ pair ∈ opened ends, ∃ link before after,
        r.createChannel link .a kernelA.port kernelB.port .unordered
          Settings.kernelChannelVersion before = .ok pair after := by
  induction n generalizing s with
  | zero => exact ⟨[], s.site.outside, rfl, rfl, List.forall_mem_nil _⟩
  | succ n ih =>
    obtain ⟨result, outside, hcall, hanswered⟩ := openKernelChannel_outcome r o hA hB
    -- A call leaves the kernels as they are, however it ends.
    have hA' : (s.campaign.afterOpening result).a.kernel = .ok kernelA := by
      cases result <;> exact hA
    have hB' : (s.campaign.afterOpening result).b.kernel = .ok kernelB := by
      cases result <;> exact hB
    obtain ⟨ends, outside', hrest, hlength, hopened⟩ :=
      ih (s := ⟨s.campaign.afterOpening result, ⟨s.site.files, outside⟩⟩) hA' hB'
    refine ⟨result :: ends, outside', ?_, congrArg (· + 1) hlength, ?_⟩
    · rw [openKernelChannels, Act.bind_run_ok (Act.attempt_run _ s), hcall]
      exact Act.bind_run_ok hrest
    · cases result with
      | error e => exact hopened
      | ok pair =>
        intro pair' hpair'
        rcases List.mem_cons.1 hpair' with rfl | hrest
        · obtain ⟨before, hcreated⟩ := hanswered pair' rfl
          exact ⟨_, before, outside, hcreated⟩
        · exact hopened pair' hrest

end Openings

/-! ## Kernels that store what they are told -/

/-- The kernels of a campaign learn the channels of another chain from every message that assigns
them, and tell those that they learned last.  What one of them learned does not change the other. -/
structure KernelsStore (c : Campaign σ) (stored : Side → σ → Text → Option (Json × Json)) :
    Prop where
  learns : ∀ side kernel, (c.endpoint side).kernel = .ok kernel →
    ∀ ics20 address chain direct s, ∃ hash t,
      kernel.execute (c.endpoint side).client (.assignChannels ics20 address chain direct) [] s =
        .ok hash t ∧
      stored side t = Function.update (stored side s) chain (some (ics20, direct)) ∧
      stored side.other t = stored side.other s
  tells : ∀ side kernel, (c.endpoint side).kernel = .ok kernel →
    ∀ chain ics20 direct s, stored side s chain = some (ics20, direct) → ∃ answer t,
      kernel.query (c.endpoint side).client (.channelInfo chain) s = .ok answer t ∧
      answer.member "ics20" = .ok ics20 ∧ answer.member "direct" = .ok direct ∧
      ∀ side, stored side t = stored side s

section Stores

variable {c : Campaign σ} {stored : Side → σ → Text → Option (Json × Json)}

/-- A kernel that is told of the other chain has the channel that its own chain knows. -/
theorem assignChannels_of_stores (h : KernelsStore c stored) (side : Side) {direct : Json}
    {kernel other : Contract} (hkernel : (c.endpoint side).kernel = .ok kernel)
    (hother : (c.counterparty side).kernel = .ok other) (hdirect : direct.equals direct = true)
    (channel : Json) (s : σ) :
    ∃ t, assignChannels { c.endpoint side with directChannel := direct }
        { c.counterparty side with directChannel := channel } s = .ok () t ∧
      stored side t (c.counterparty side).name =
        some (.str (c.endpoint side).ics20Channel, direct) ∧
      stored side.other t = stored side.other s := by
  obtain ⟨hash, u, hexecute, hlearned, hothers⟩ := h.learns side kernel hkernel
    (.str (c.endpoint side).ics20Channel) other.address (c.counterparty side).name direct s
  have hstored : stored side u (c.counterparty side).name =
      some (.str (c.endpoint side).ics20Channel, direct) := by
    rw [hlearned, Function.update_self]
  obtain ⟨answer, t, hquery, hics20, htold, hsame⟩ := h.tells side kernel hkernel _ _ _ u hstored
  refine ⟨t, ?_, by rw [hsame, hstored], by rw [hsame, hothers]⟩
  have hkernel' : Endpoint.kernel { c.endpoint side with directChannel := direct } = .ok kernel :=
    hkernel
  have hother' : Endpoint.kernel { c.counterparty side with directChannel := channel } =
      .ok other := hother
  rw [assignChannels]
  simp only [hkernel', hother', Act.ofExcept_ok, pure_bind]
  rw [Act.bind_run_ok hexecute, Act.bind_run_ok hquery]
  simp [hics20, htold, hdirect, Json.isText]

/-- Both kernels are told of each other, and then have the ends of a channel on their own chains. -/
theorem assignAllChannels_of_stores (h : KernelsStore c stored) {kernelA kernelB : Contract}
    (hA : c.a.kernel = .ok kernelA) (hB : c.b.kernel = .ok kernelB) {pair : ChannelPair}
    (hpair : ∀ side, (pair.endOn side).channel.equals (pair.endOn side).channel = true)
    {c' : Campaign σ}
    (hends : ∀ side, c'.endpoint side =
      { c.endpoint side with directChannel := (pair.endOn side).channel }) (s : σ) :
    ∃ t, assignAllChannels c' s = .ok () t ∧
      ∀ side, stored side t (c.counterparty side).name =
        some (.str (c.endpoint side).ics20Channel, (pair.endOn side).channel) := by
  have hkernel : ∀ side : Side, (c.endpoint side).kernel = .ok (side.pick kernelA kernelB) := by
    intro side
    cases side
    · exact hA
    · exact hB
  obtain ⟨u, hassignA, hstoredA, -⟩ := assignChannels_of_stores h .a (hkernel .a) (hkernel .b)
    (hpair .a) (pair.endOn .b).channel s
  obtain ⟨t, hassignB, hstoredB, hsame⟩ := assignChannels_of_stores h .b (hkernel .b) (hkernel .a)
    (hpair .b) (pair.endOn .a).channel u
  have ha : c'.a = { c.a with directChannel := (pair.endOn .a).channel } := hends .a
  have hb : c'.b = { c.b with directChannel := (pair.endOn .b).channel } := hends .b
  refine ⟨t, ?_, fun side => ?_⟩
  · rw [assignAllChannels, ha, hb]
    exact (Act.bind_run_ok hassignA).trans hassignB
  · cases side with
    | a => exact (congrFun hsame _).trans hstoredA
    | b => exact hstoredB

end Stores

/-! ## The law -/

/-- A call that opens a channel between the kernels of a campaign adds one channel to the link,
which the campaign then remembers and of which either chain knows its own end, or it changes nothing
of the campaign; the channel is one that the relayer answered when it was asked for the ports of the
kernels, and every relayer over hermes answers with these.  After a number of such calls the
channels of those that succeeded, all of them answered to that question, follow the ones that the
link had, and the last of them is the one that is remembered and known.  If it has names that equal
themselves, kernels that store what they are told can be told of each other, and then each of them
has the end of that channel on its own chain. -/
theorem kernelChannels_consistent [Json.Limits] (r : Relayer σ) (o : Outside σ) {s : Run σ}
    {kernelA kernelB : Contract} (hA : s.campaign.a.kernel = .ok kernelA)
    (hB : s.campaign.b.kernel = .ok kernelB) (n : Nat) :
    (∃ result outside,
      (openKernelChannel r o).outcome s =
        (result, ⟨s.campaign.afterOpening result, ⟨s.site.files, outside⟩⟩) ∧
      ∀ pair, result = .ok pair → ∃ before,
        r.createChannel s.campaign.link .a kernelA.port kernelB.port .unordered
          Settings.kernelChannelVersion before = .ok pair outside) ∧
    ∃ ends outside,
      openKernelChannels r o n s =
        .ok ends ⟨ends.foldl Campaign.afterOpening s.campaign, ⟨s.site.files, outside⟩⟩ ∧
      ends.length = n ∧
      (ends.foldl Campaign.afterOpening s.campaign).link =
        { s.campaign.link with channels := s.campaign.link.channels ++ opened ends } ∧
      (∀ pair ∈ opened ends, ∃ link before after,
        r.createChannel link .a kernelA.port kernelB.port .unordered
          Settings.kernelChannelVersion before = .ok pair after) ∧
      (∀ pair ∈ opened ends, r.KeepsPorts →
        pair.src.port = kernelA.port ∧ pair.dest.port = kernelB.port) ∧
      (∀ binary run, (Relayer.hermes binary run : Relayer σ).KeepsPorts) ∧
      ∀ earlier last, opened ends = earlier ++ [last] →
        (ends.foldl Campaign.afterOpening s.campaign).channel = some last ∧
        (∀ side, (ends.foldl Campaign.afterOpening s.campaign).endpoint side =
          { s.campaign.endpoint side with directChannel := (last.endOn side).channel }) ∧
        ∀ stored, KernelsStore s.campaign stored →
          (∀ side, (last.endOn side).channel.equals (last.endOn side).channel = true) →
          ∃ t, assignAllChannels (ends.foldl Campaign.afterOpening s.campaign) outside = .ok () t ∧
            ∀ side, stored side t (s.campaign.counterparty side).name =
              some (.str (s.campaign.endpoint side).ics20Channel, (last.endOn side).channel) := by
  obtain ⟨ends, outside', hrun, hlength, hopened⟩ := openKernelChannels_run r o n hA hB
  refine ⟨openKernelChannel_outcome r o hA hB, ends, outside', hrun, hlength, ?_, hopened, ?_,
    Hermes.keepsPorts, ?_⟩
  · rw [foldl_afterOpening, link_foldl]
  · intro pair hpair hkeeps
    obtain ⟨link, before, after, hcreated⟩ := hopened pair hpair
    exact hkeeps hcreated
  · intro earlier last hlast
    have hends := foldl_concat (c := s.campaign) earlier last
    rw [← hlast, ← foldl_afterOpening] at hends
    exact ⟨hends.1, hends.2, fun stored hstores hself =>
      assignAllChannels_of_stores hstores hA hB hself hends.2 outside'⟩

/-! ### Two kernels that store -/

/-- What two kernels have learned of other chains. -/
abbrev Learned := Side → Text → Option (Json × Json)

/-- A chain whose kernel stores the channels that it is told. -/
def storing (side : Side) (d : ChainDefinition) : ChainClient Learned where
  chainId := d.chainId
  sender := d.faucet.address
  answer
    | .execute _ (.obj [(_, .obj [(_, ics20), _, (_, .str chain), (_, direct)])]) _ => do
      modify fun s => Function.update s side (Function.update (s side) chain (some (ics20, direct)))
      return text "A1B2"
    | .query _ (.obj [(_, .obj [(_, .str chain)])]) => do
      match (← get) side chain with
      | some (ics20, direct) => return Json.obj [("ics20", ics20), ("direct", direct)]
      | none => throw (.missingKey chain)
    | _ => throw (.broken "unknown call")

/-- A relayer that answers every opening with the same channel. -/
def answering (pair : ChannelPair) : Relayer Learned where
  answer
    | .createChannel .. => return pair
    | _ => throw (.relay (.ofMessage "nothing but channels"))

/-- An outside world in which no time passes, with a chain for each side. -/
def still : Outside Learned where
  sleep _ := return
  randomBytes count := return List.replicate count 0
  addressOf := Bech32.write
  fetch _ _ := throw (.request (.connection "no network"))
  run _ := throw (.file (.reported "no processes"))
  connect d _ := return storing (if d.name = localA.name then .a else .b) d
  now := return .ofDecimal false 0 0

/-- A local chain at the start of a campaign, whose kernel stores what it is told. -/
def storingAt (side : Side) (d : ChainDefinition) : Endpoint Learned where
  name := d.name
  definition := d
  client := storing side d
  ics20Channel := Settings.ics20Channel
  ibcDenom := uosmoVoucher

/-- The two local chains, linked. -/
def storingStart : Campaign Learned where
  a := storingAt .a localA
  b := storingAt .b localB
  link := {
    chainA := localA, chainB := localB
    connectionA := .str "connection-0", connectionB := .str "connection-0"
    channels := [Campaign.transferChannel localA localB] }

/-- A run of the two local chains with a kernel on both. -/
def storingRun : Run Learned where
  campaign := { storingStart with
    a := storingStart.a.withAddresses [(kernelName, .str "osmo1kernela1")]
    b := storingStart.b.withAddresses [(kernelName, .str "osmo1kernelb1")] }
  site := ⟨⟨[]⟩, fun _ _ => none⟩

theorem reached_storingRun : Reached storingRun.campaign := by
  have hstart : Campaign.start (answering ⟨⟨[], .null⟩, ⟨[], .null⟩⟩) still localA localB []
      (some "connection-0") (some "connection-0") (fun _ _ => none) =
        .ok storingStart fun _ _ => none := by
    have hA : Campaign.startingEndpoint localA localB (storing .a localA) =
        .ok (storingAt .a localA) := congrArg (Except.map _) afterHop_uosmo
    have hB : Campaign.startingEndpoint localB localA (storing .b localB) =
        .ok (storingAt .b localB) := congrArg (Except.map _) afterHop_uosmo
    have hconnect : Act.awaitBoth (still.connect localA []) (still.connect localB [])
        (fun _ _ => none) = .ok (storing .a localA, storing .b localB) fun _ _ => none := rfl
    rw [Campaign.start]
    refine (Act.bind_run_ok hconnect).trans ?_
    simp only [hA, hB]
    rfl
  exact .addressed .b [(kernelName, .str "osmo1kernelb1")]
    (.addressed .a [(kernelName, .str "osmo1kernela1")] (.started hstart))

theorem kernelsStore_storingRun : KernelsStore storingRun.campaign fun side s => s side where
  learns side kernel hkernel ics20 address chain direct s := by
    refine ⟨"A1B2", Function.update s side (Function.update (s side) chain (some (ics20, direct))),
      by cases side <;> rfl, Function.update_self .., ?_⟩
    exact Function.update_of_ne (by cases side <;> decide) ..
  tells side kernel hkernel chain ics20 direct s hstored := by
    have hclient : (storing side (side.pick localA localB)).answer
        (.query kernel.address (ContractMessage.channelInfo chain).toJson) s =
          (match s side chain with
            | some (ics20, direct) => (return Json.obj [("ics20", ics20), ("direct", direct)])
            | none => throw (.missingKey chain) : Act Learned Json) s := rfl
    refine ⟨.obj [("ics20", ics20), ("direct", direct)], s, ?_, rfl, rfl, fun _ => rfl⟩
    rw [hstored] at hclient
    cases side <;> exact hclient

/-- After two calls the kernels have the ends of a channel whose names are texts. -/
theorem kernelChannels_consistent_twice :
    Reached storingRun.campaign ∧
    storingRun.campaign.a.kernel = .ok ⟨.str "osmo1kernela1"⟩ ∧
    storingRun.campaign.b.kernel = .ok ⟨.str "osmo1kernelb1"⟩ ∧
    ∃ ends outside t,
      openKernelChannels (answering
          ⟨⟨"wasm.osmo1kernela1", .str "channel-1"⟩, ⟨"wasm.osmo1kernelb1", .str "channel-2"⟩⟩)
        still 2 storingRun =
          .ok ends ⟨ends.foldl Campaign.afterOpening storingRun.campaign, ⟨⟨[]⟩, outside⟩⟩ ∧
      assignAllChannels (ends.foldl Campaign.afterOpening storingRun.campaign) outside =
        .ok () t ∧
      t .a "osmo-b" = some (.str "channel-0", .str "channel-1") ∧
      t .b "osmo-a" = some (.str "channel-0", .str "channel-2") := by
  let pair : ChannelPair :=
    ⟨⟨"wasm.osmo1kernela1", .str "channel-1"⟩, ⟨"wasm.osmo1kernelb1", .str "channel-2"⟩⟩
  have hA : storingRun.campaign.a.kernel = .ok ⟨.str "osmo1kernela1"⟩ := rfl
  have hB : storingRun.campaign.b.kernel = .ok ⟨.str "osmo1kernelb1"⟩ := rfl
  obtain ⟨-, ends, outside, hrun, -, -, -, -, -, hlast⟩ :=
    kernelChannels_consistent (answering pair) still hA hB 2
  obtain rfl : ends = [.ok pair, .ok pair] := by
    have hends : openKernelChannels (answering pair) still 2 storingRun =
      .ok [.ok pair, .ok pair] _ := rfl
    exact (EStateM.Result.ok.inj (hrun.symm.trans hends)).1
  obtain ⟨-, -, hassign⟩ := hlast [pair] pair rfl
  obtain ⟨t, hrun', hstored⟩ := hassign (fun side s => s side) kernelsStore_storingRun
    fun side => by cases side <;> decide
  exact ⟨reached_storingRun, hA, hB, _, outside, t, hrun, hrun', hstored .a, hstored .b⟩

/-- A relayer may answer with a name that is no number, which a kernel stores and tells, but which
does not equal itself; and it may answer with other ports than those of the kernels. -/
theorem assignAllChannels_refuses_nan :
    Reached storingRun.campaign ∧
    KernelsStore storingRun.campaign (fun side s => s side) ∧
    (∃ s t, openKernelChannel (answering
          ⟨⟨"wasm.osmo1kernela1", .float .nan⟩, ⟨"wasm.osmo1kernelb1", .str "channel-9"⟩⟩) still
        storingRun =
          .ok ⟨⟨"wasm.osmo1kernela1", .float .nan⟩, ⟨"wasm.osmo1kernelb1", .str "channel-9"⟩⟩ s ∧
      assignAllChannels s.campaign s.site.outside =
        .error (.mismatch (.directChannel "osmo-a" (.float .nan))) t) ∧
    storingRun.campaign.a.kernel.map Contract.port = .ok "wasm.osmo1kernela1" ∧
    ∃ s, openKernelChannel (answering
          ⟨⟨"transfer", .str "channel-1"⟩, ⟨"transfer", .str "channel-2"⟩⟩) still storingRun =
        .ok ⟨⟨"transfer", .str "channel-1"⟩, ⟨"transfer", .str "channel-2"⟩⟩ s :=
  ⟨reached_storingRun, kernelsStore_storingRun, ⟨_, _, rfl, rfl⟩, rfl, ⟨_, rfl⟩⟩

end Scenario

end CrossChain
