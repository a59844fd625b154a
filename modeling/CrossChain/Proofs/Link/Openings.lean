import CrossChain.Proofs.Link.Plan
import CrossChain.Relay.Handshake

/-!
# Channels from their opening to their relays

A link is used by calls that open channels, from either side, and by relays; any of them may fail
(`LinkInUse.after`).  Every channel that came to the link so goes back to the run of hermes that
opened it (`Opening`): on each side its end has the port that was asked for the role of that side in
the handshake, and the id that hermes answered for that role.  Whatever was done with a link before,
the commands of a relay name ends that were opened on the chain they call their source
(`relay_namesKnownEnds`).
-/

namespace CrossChain

/-! ## Handshakes -/

namespace Handshake

variable {σ α : Type} {pause : Act σ Unit} {act : Act σ α}

section Within

variable {R : σ → σ → Prop} [Std.Refl R] [IsTrans σ R]

theorem within_tryUpTo (hpause : Act.Within R pause) (hact : Act.Within R act) (left : Nat)
    (last : Option Text) : Act.Within R (tryUpTo pause act left last) := by
  induction left generalizing last with
  | zero => exact Act.within_pure _
  | succ left ih =>
    rw [tryUpTo]
    refine hact.attempt.bind fun ended => ?_
    cases ended with
    | ok a => exact Act.within_pure _
    | error e =>
      cases e with
      | relay message =>
        cases left with
        | zero => exact ih _
        | succ left => exact hpause.bind fun _ => ih _
      | _ => exact Act.within_throw _

/-- A handshake that succeeds ends with a try that does. -/
theorem tryUpTo_eq_ok (hpause : Act.Within R pause) (hact : Act.Within R act) {left : Nat}
    {last : Option Text} {s t : σ} {a : α}
    (h : tryUpTo pause act left last s = .ok (.ok a) t) : ∃ u, R s u ∧ act u = .ok a t := by
  induction left generalizing last s with
  | zero => cases h
  | succ left ih =>
    rw [tryUpTo] at h
    cases htry : act s with
    | ok b u =>
      rw [Act.bind_run_ok (Act.attempt_run_ok htry)] at h
      cases h
      exact ⟨s, Std.Refl.refl s, htry⟩
    | error e u =>
      rw [Act.bind_run_ok (Act.attempt_run_error htry)] at h
      have hfailed := hact.error htry
      cases e with
      | relay message =>
        cases left with
        | zero => cases h
        | succ left =>
          obtain ⟨_, v, hpaused, hrest⟩ := Act.bind_eq_ok h
          obtain ⟨w, hw, hok⟩ := ih hrest
          have hretry := IsTrans.trans s u v hfailed (hpause.ok hpaused)
          exact ⟨w, IsTrans.trans s v w hretry hw, hok⟩
      | _ => cases h

variable {sleep : Binary64 → Act σ Unit} (hsleep : ∀ d, Act.Within R (sleep d))
  (hact : Act.Within R act) {handshake : Handshake} {attempts : Int} {backoff : Binary64}

include hsleep hact

theorem within_retried : Act.Within R (retried sleep handshake attempts backoff act) := by
  refine (within_tryUpTo (hsleep backoff) hact _ none).bind fun ended => ?_
  cases ended with
  | ok a => exact Act.within_pure a
  | error last => exact Act.within_throw _

theorem retried_eq_ok {s t : σ} {a : α}
    (h : retried sleep handshake attempts backoff act s = .ok a t) :
    ∃ u, R s u ∧ act u = .ok a t := by
  obtain ⟨ended, u, htried, hend⟩ := Act.bind_eq_ok h
  cases ended with
  | error last => cases hend
  | ok b =>
    cases hend
    exact tryUpTo_eq_ok (hsleep backoff) hact htried

end Within

end Handshake

/-! ## Links in use -/

/-- A call to open a channel. -/
structure OpenCall where
  side : Text
  portA : Text
  portB : Text
  order : Text
  version : Text
  attempts : Int
  backoff : Binary64

/-- What is done with a link. -/
inductive LinkUse
  | openChannel (call : OpenCall)
  | relay (budget : Int) (delay : Binary64)

/-- A link in use, with the calls that opened channels over it and what they gave. -/
structure LinkInUse (σ : Type) where
  link : Link
  opened : List (OpenCall × ChannelPair)
  world : σ

namespace LinkInUse

variable {σ : Type} (r : Relayer σ) (sleep : Binary64 → Act σ Unit)

/-- A link after it was used once more; a use that fails leaves it as it was. -/
def after (u : LinkInUse σ) : LinkUse → LinkInUse σ
  | .openChannel c =>
    match u.link.openChannelNamed r sleep c.side c.portA c.portB c.order c.version c.attempts
      c.backoff u.world with
    | .ok (pair, link) world => ⟨link, u.opened ++ [(c, pair)], world⟩
    | .error _ world => { u with world }
  | .relay budget delay => { u with world := (u.link.relay r sleep budget delay).final u.world }

/-- A link after it was used in several ways, one after the other. -/
def afterAll (u : LinkInUse σ) (uses : List LinkUse) : LinkInUse σ := uses.foldl (after r sleep) u

end LinkInUse

namespace Hermes

/-! ## Openings -/

/-- A call for which hermes opened a channel over a link: the run that did, and the ids of both ends
that it answered. -/
structure Opening [Json.Limits] (binary : Text) (link : Link) where
  call : OpenCall
  side : Side
  isSide : Side.ofName call.side = .ok side
  order : Order
  isOrder : Order.ofName call.order = .ok order
  ran : Ran binary (channelCommand link side call.portA call.portB order call.version)
  channelA : Json
  isChannelA : ofSide "a_side" "channel_id" ran.result = .ok channelA
  channelB : Json
  isChannelB : ofSide "b_side" "channel_id" ran.result = .ok channelB

namespace Opening

variable [Json.Limits] {binary : Text} {link : Link} (o : Opening binary link)

/-- What the call gave: the end of the side that it started on first. -/
def answer : ChannelPair := ⟨⟨o.call.portA, o.channelA⟩, ⟨o.call.portB, o.channelB⟩⟩

/-- The end on a side: that side had the first role in the handshake if it started there, and the
second role otherwise. -/
def endOn (side : Side) : ChannelEnd :=
  if side = o.side then ⟨o.call.portA, o.channelA⟩ else ⟨o.call.portB, o.channelB⟩

/-- The channel as a link keeps it. -/
def channel : ChannelPair := ⟨o.endOn .a, o.endOn .b⟩

theorem endOn_channel (side : Side) : o.channel.endOn side = o.endOn side := by
  cases side <;> rfl

theorem pick_answer : o.side.pick o.answer o.answer.swap = o.channel := by
  unfold channel endOn answer ChannelPair.swap
  cases o.side <;> rfl

end Opening

/-- The relayer over hermes whose runs and sweeps are noted. -/
def notedHermes [Json.Limits] {σ : Type} (binary : Text) (run : List Text → Act σ ProcessResult) :
    Relayer (Logged RelayEntry σ) :=
  (Relayer.hermes binary (notedRun run)).notingSweeps

section Openings

variable [Json.Limits] {σ : Type} {binary : Text} {run : List Text → Act σ ProcessResult}
  {sleep : Binary64 → Act σ Unit} {link : Link} {s t : Logged RelayEntry σ}

omit [Json.Limits] in
theorem ofSides_eq_ok {key about : Text} {result : Json} {pair : Json × Json}
    (h : ofSides key about result = .ok pair) :
    ofSide "a_side" key result = .ok pair.1 ∧ ofSide "b_side" key result = .ok pair.2 := by
  rw [ofSides] at h
  split at h
  · next found hfound =>
    cases h
    obtain ⟨x, hx, hrest⟩ := Act.except_bind_eq_ok hfound
    obtain ⟨y, hy, hpair⟩ := Act.except_bind_eq_ok hrest
    cases hpair
    exact ⟨hx, hy⟩
  · split at h <;> cases h

theorem within_createChannel (side : Side) (portA portB : Text) (order : Order) (version : Text) :
    Act.Within (Logged.Adds NoSweep)
      (createChannel binary (notedRun run) link side portA portB order version) :=
  (within_command binary run _).bind fun _ =>
    (Act.within_ofExcept _).bind fun _ => Act.within_pure _

theorem within_openChannelNamed (c : OpenCall) :
    Act.Within (Logged.Adds NoSweep) (link.openChannelNamed (notedHermes binary run)
      (fun d => Logged.lift (sleep d)) c.side c.portA c.portB c.order c.version c.attempts
      c.backoff) := by
  rw [Link.openChannelNamed]
  split
  · exact Act.within_throw _
  · refine (Act.within_ofExcept _).bind fun side => (Act.within_ofExcept _).bind fun order => ?_
    have hcreate : Act.Within (Logged.Adds NoSweep) (createChannel binary (notedRun run) link side
        c.portA c.portB order c.version) := within_createChannel _ _ _ _ _
    exact (Handshake.within_retried (fun _ => Logged.within_adds_lift _) hcreate).bind
      fun _ => Act.within_pure _

theorem createChannel_ok {side : Side} {portA portB : Text} {order : Order} {version : Text}
    {pair : ChannelPair}
    (h : createChannel binary (notedRun run) link side portA portB order version s = .ok pair t) :
    ∃ (ran : Ran binary (channelCommand link side portA portB order version)) (x y : Json),
      ofSide "a_side" "channel_id" ran.result = .ok x ∧
      ofSide "b_side" "channel_id" ran.result = .ok y ∧
      pair = ⟨⟨portA, x⟩, ⟨portB, y⟩⟩ ∧ t.log = s.log ++ [ran.entry] := by
  obtain ⟨result, u, hcommand, hrest⟩ := Act.bind_eq_ok h
  obtain ⟨ran, rfl, hlog⟩ := command_ok hcommand
  obtain ⟨⟨x, y⟩, v, hanswer, hpair⟩ := Act.bind_eq_ok hrest
  obtain ⟨hsides, rfl⟩ := Act.ofExcept_eq_ok hanswer
  cases hpair
  obtain ⟨isChannelA, isChannelB⟩ := ofSides_eq_ok hsides
  exact ⟨ran, x, y, isChannelA, isChannelB, rfl, hlog⟩

/-- A call that opens a channel ends with the run of hermes that did, and adds the channel to the
link. -/
theorem openChannelNamed_eq_ok {channels : List ChannelPair} {c : OpenCall} {pair : ChannelPair}
    {link' : Link}
    (h : ({ link with channels } : Link).openChannelNamed (notedHermes binary run)
      (fun d => Logged.lift (sleep d)) c.side c.portA c.portB c.order c.version c.attempts c.backoff
      s = .ok (pair, link') t) :
    ∃ (o : Opening binary link) (tries : List RelayEntry),
      o.call = c ∧ o.answer = pair ∧
      link' = { link with channels := channels ++ [o.channel] } ∧
      t.log = s.log ++ tries ++ [o.ran.entry] := by
  rw [Link.openChannelNamed] at h
  split at h
  · cases h
  dsimp only at h
  obtain ⟨side, u, hside, hread⟩ := Act.bind_eq_ok h
  obtain ⟨isSide, rfl⟩ := Act.ofExcept_eq_ok hside
  obtain ⟨order, v, horder, hopen⟩ := Act.bind_eq_ok hread
  obtain ⟨isOrder, rfl⟩ := Act.ofExcept_eq_ok horder
  obtain ⟨pair', t', hretried, hend⟩ := Act.bind_eq_ok hopen
  cases hend
  have hcreate : Act.Within (Logged.Adds NoSweep) (createChannel binary (notedRun run)
    { link with channels } side c.portA c.portB order c.version) := within_createChannel _ _ _ _ _
  obtain ⟨w, ⟨tries, htries, -⟩, hcreated⟩ :=
    Handshake.retried_eq_ok (fun _ => Logged.within_adds_lift _) hcreate hretried
  obtain ⟨ran, x, y, isChannelA, isChannelB, rfl, hlog⟩ := createChannel_ok hcreated
  let o : Opening binary link :=
    ⟨c, side, isSide, order, isOrder, ran, x, isChannelA, y, isChannelB⟩
  refine ⟨o, tries, rfl, rfl, ?_, ?_⟩
  · rw [← o.pick_answer]
    rfl
  · rw [hlog, htries]
    rfl

/-! ## Histories -/

/-- Openings account for a link in use that was taken up as `link`: they are the calls that gave a
channel, in order, their runs are in the log in that order, and their channels follow those that the
link had. -/
structure OpenedBy (link : Link) (openings : List (Opening binary link))
    (u : LinkInUse (Logged RelayEntry σ)) : Prop where
  calls : u.opened = openings.map fun o => (o.call, o.answer)
  runs : (openings.map fun o => o.ran.entry).Sublist u.world.log
  channels : u.link = { link with channels := link.channels ++ openings.map Opening.channel }

variable {openings : List (Opening binary link)} {u : LinkInUse (Logged RelayEntry σ)}

theorem OpenedBy.channels_eq (h : OpenedBy link openings u) :
    u.link.channels = link.channels ++ openings.map Opening.channel := by
  rw [h.channels]

/-- What leaves the link as it is and the log no shorter changes nothing about the openings. -/
theorem OpenedBy.of_adds {P : RelayEntry → Prop} (h : OpenedBy link openings u)
    {world : Logged RelayEntry σ} (hworld : Logged.Adds P u.world world) :
    OpenedBy link openings { u with world } := by
  obtain ⟨l, hlog, -⟩ := hworld
  refine ⟨h.calls, ?_, h.channels⟩
  rw [hlog]
  exact h.runs.trans (List.sublist_append_left _ _)

/-- A channel that is opened is the last of the openings. -/
theorem OpenedBy.concat (h : OpenedBy link openings u) (o : Opening binary link)
    {world : Logged RelayEntry σ} {tries : List RelayEntry}
    (hlog : world.log = u.world.log ++ tries ++ [o.ran.entry]) :
    OpenedBy link (openings ++ [o])
      ⟨{ u.link with channels := u.link.channels ++ [o.channel] },
        u.opened ++ [(o.call, o.answer)], world⟩ := by
  refine ⟨?_, ?_, ?_⟩
  · rw [h.calls, List.map_append]
    rfl
  · rw [hlog, List.map_append]
    exact (h.runs.trans (List.sublist_append_left _ _)).append (List.Sublist.refl _)
  · rw [h.channels, List.map_append, ← List.append_assoc]
    rfl

/-- One more use of a link: a call that opens a channel adds an opening, and all else keeps them. -/
theorem OpenedBy.after (h : OpenedBy link openings u) (use : LinkUse) :
    ∃ openings' : List (Opening binary link), OpenedBy link openings'
      (u.after (notedHermes binary run) (fun d => Logged.lift (sleep d)) use) := by
  cases use with
  | relay budget delay =>
    have hrelay : Act.Within (Sweeps binary u.link) (u.link.relay (notedHermes binary run)
      (fun d => Logged.lift (sleep d)) budget delay) := sweeps_relay
    obtain ⟨sweeps, hlog, -⟩ := hrelay u.world
    exact ⟨openings, h.of_adds (P := fun _ => True) ⟨_, hlog, fun _ _ => trivial⟩⟩
  | openChannel c =>
    cases hopen : u.link.openChannelNamed (notedHermes binary run) (fun d => Logged.lift (sleep d))
      c.side c.portA c.portB c.order c.version c.attempts c.backoff u.world with
    | error e world =>
      simp only [LinkInUse.after, hopen]
      exact ⟨openings, h.of_adds ((within_openChannelNamed c).error hopen)⟩
    | ok p world =>
      obtain ⟨pair, link'⟩ := p
      simp only [LinkInUse.after, hopen]
      -- The command that opens a channel does not depend on the channels there are.
      rw [h.channels] at hopen
      obtain ⟨o, tries, rfl, rfl, rfl, hlog⟩ := openChannelNamed_eq_ok hopen
      have hopened := h.concat o hlog
      rw [h.channels] at hopened
      exact ⟨openings ++ [o], hopened⟩

theorem OpenedBy.afterAll (h : OpenedBy link openings u) (uses : List LinkUse) :
    ∃ openings' : List (Opening binary link), OpenedBy link openings'
      (u.afterAll (notedHermes binary run) (fun d => Logged.lift (sleep d)) uses) := by
  induction uses generalizing u openings with
  | nil => exact ⟨openings, h⟩
  | cons use uses ih =>
    obtain ⟨openings', h'⟩ := h.after use
    exact ih h'

end Openings

/-! ## The law -/

section Law

variable [Json.Limits] {σ : Type} {binary : Text} {link : Link}

/-- The ends on a side of the channels that a link had and of those that were opened. -/
def knownEnds (link : Link) (openings : List (Opening binary link)) (side : Side) :
    List ChannelEnd :=
  link.channels.map (ChannelPair.endOn · side) ++ openings.map (Opening.endOn · side)

theorem OpenedBy.endOn_mem {openings : List (Opening binary link)}
    {u : LinkInUse (Logged RelayEntry σ)} (h : OpenedBy link openings u) {channel : ChannelPair}
    (hchannel : channel ∈ u.link.channels) (side : Side) :
    channel.endOn side ∈ knownEnds link openings side := by
  rw [h.channels_eq] at hchannel
  rcases List.mem_append.1 hchannel with hfound | hopened
  · exact List.mem_append_left _ (List.mem_map_of_mem hfound)
  · obtain ⟨o, ho, rfl⟩ := List.mem_map.1 hopened
    rw [o.endOn_channel]
    exact List.mem_append_right _ (List.mem_map_of_mem ho)

omit [Json.Limits] in
theorem side_eq_of_chainId (hids : link.chainA.chainId ≠ link.chainB.chainId) {side side' : Side}
    (h : (link.chain side).chainId = (link.chain side').chainId) : side = side' := by
  cases side <;> cases side'
  · rfl
  · exact absurd h hids
  · exact absurd h.symm hids
  · rfl

/-- A run of hermes that moves packets or acknowledgements names the two chains of a link as source
and destination, and on the source an end that is known there. -/
def NamesKnownEnd (link : Link) (openings : List (Opening binary link)) (line : List Text) : Prop :=
  ∃ kind dst src port channel, line = packetLine binary kind dst src port channel ∧
    (∃ side, src = (link.chain side).chainId) ∧
    ∀ side, src = (link.chain side).chainId →
      dst = (link.chain side.other).chainId ∧ ⟨port, .str channel⟩ ∈ knownEnds link openings side

theorem OpenedBy.namesKnownEnd {openings : List (Opening binary link)}
    {u : LinkInUse (Logged RelayEntry σ)} (h : OpenedBy link openings u)
    (hids : link.chainA.chainId ≠ link.chainB.chainId) {c : PacketCommand} {line : List Text}
    (hc : c ∈ plan u.link.channels) (hline : commandLine binary (c.arguments u.link) = .ok line) :
    NamesKnownEnd link openings line := by
  obtain ⟨channel, hchannel, rfl⟩ := line_of_packetCommand hline
  have hchain : ∀ side, u.link.chain side = link.chain side := fun side => by rw [h.channels]; rfl
  rw [hchain, hchain]
  refine ⟨_, _, _, _, _, rfl, ⟨c.source, rfl⟩, fun side hside => ?_⟩
  obtain rfl := side_eq_of_chainId hids hside
  refine ⟨rfl, ?_⟩
  rw [← hchannel]
  exact h.endOn_mem (mem_plan hc) c.source

/-- A sweep goes along the channels in the order of their opening, and names known ends. -/
theorem OpenedBy.follows {openings : List (Opening binary link)}
    {u : LinkInUse (Logged RelayEntry σ)} (h : OpenedBy link openings u)
    (hids : link.chainA.chainId ≠ link.chainB.chainId) {entries : List RelayEntry}
    (hentries : ∃ whole, Follows binary u.link whole (plan u.link.channels) entries) :
    (∃ whole, Follows binary u.link whole
      (plan (link.channels ++ openings.map Opening.channel)) entries) ∧
    ∀ entry ∈ entries, ∃ line ended, entry = .ran line ended ∧
      NamesKnownEnd link openings line := by
  obtain ⟨whole, hwhole⟩ := hentries
  refine ⟨⟨whole, h.channels_eq ▸ hwhole⟩, fun entry hentry => ?_⟩
  obtain ⟨c, hc, line, ended, rfl, hline⟩ := hwhole.exists_command hentry
  exact ⟨line, ended, rfl, h.namesKnownEnd hids hc hline⟩

/-- A link over hermes after it was used in several ways, the log with it. -/
def used (binary : Text) (run : List Text → Act σ ProcessResult) (sleep : Binary64 → Act σ Unit)
    (link : Link) (s : σ) (uses : List LinkUse) : LinkInUse (Logged RelayEntry σ) :=
  (⟨link, [], ⟨[], s⟩⟩ : LinkInUse (Logged RelayEntry σ)).afterAll (notedHermes binary run)
    (fun d => Logged.lift (sleep d)) uses

/-- Ends are not mixed up between their opening and a relay.  Whatever was done before with a link
on chains of different ids, openings account for the channels that came to it.  In a relay every
sweep goes along the channels in the order of their opening, and every run of hermes names an end
that is known on the chain it calls the source.  If the relay ends well, its last sweep made an
exchange over every channel: packets delivered from a chain are told as from there, and their
acknowledgements as written on the other chain. -/
theorem relay_namesKnownEnds (binary : Text) (run : List Text → Act σ ProcessResult)
    (sleep : Binary64 → Act σ Unit) (link : Link)
    (hids : link.chainA.chainId ≠ link.chainB.chainId) (s : σ) (uses : List LinkUse) :
    let u := used binary run sleep link s uses
    ∃ openings : List (Opening binary link), OpenedBy link openings u ∧
      ∀ (budget : Int) (delay : Binary64) (result : Except Failure (Bool × RelayInfo))
        (t : Logged RelayEntry σ),
        (u.link.relay (notedHermes binary run) (fun d => Logged.lift (sleep d)) budget
          delay).outcome u.world = (result, t) →
        ∃ sweeps : List (List RelayEntry),
          t.log = u.world.log ++ sweeps.flatMap (.sweep :: ·) ∧
          (∀ entries ∈ sweeps,
            (∃ whole, Follows binary u.link whole
              (plan (link.channels ++ openings.map Opening.channel)) entries) ∧
            ∀ entry ∈ entries, ∃ line ended, entry = .ran line ended ∧
              NamesKnownEnd link openings line) ∧
          ∀ first info, result = .ok (first, info) →
            ∃ earlier, ∃ xs : List (Exchange binary u.link.chainA u.link.chainB),
              sweeps = earlier ++ [xs.flatMap Exchange.entries] ∧
              xs.map Exchange.pair = link.channels ++ openings.map Opening.channel ∧
              info.packetsFromA = ((xs.map fun x => x.fromA.count).sum : Nat) ∧
              info.acksFromB = xs.flatMap (fun x => x.fromA.acks) ∧
              info.packetsFromB = ((xs.map fun x => x.fromB.count).sum : Nat) ∧
              info.acksFromA = xs.flatMap (fun x => x.fromB.acks) := by
  intro u
  have hstart : OpenedBy link ([] : List (Opening binary link))
      (⟨link, [], ⟨[], s⟩⟩ : LinkInUse (Logged RelayEntry σ)) :=
    ⟨rfl, List.nil_sublist _, by rw [List.map_nil, List.append_nil]⟩
  obtain ⟨openings, h⟩ : ∃ openings : List (Opening binary link), OpenedBy link openings u :=
    hstart.afterAll uses
  refine ⟨openings, h, fun budget delay result t hrelay => ?_⟩
  cases result with
  | error e =>
    obtain ⟨sweeps, hlog, hsweeps⟩ := sweeps_relay.error (Act.run_of_outcome_error hrelay)
    exact ⟨sweeps, hlog, fun entries hentries => h.follows hids (hsweeps entries hentries), nofun⟩
  | ok p =>
    obtain ⟨first, info⟩ := p
    obtain ⟨earlier, xs, hlog, hsweeps, hpairs, rfl⟩ := relay_ok (Act.run_of_outcome_ok hrelay)
    refine ⟨_, hlog, fun entries hentries => h.follows hids (hsweeps entries hentries), ?_⟩
    rintro first' info' hsame
    cases hsame
    exact ⟨earlier, xs, rfl, hpairs.trans h.channels_eq, rfl, rfl, rfl, rfl⟩

end Law

/-! ### A channel opened from chain B -/

/-- Two chains without channels. -/
def noChannels : Link :=
  { twoChannels with
    connectionA := .str "connection-4"
    connectionB := .str "connection-2"
    channels := [] }

/-- A call that opens a channel, from a side that it names. -/
def openingFrom (side : Text) : OpenCall :=
  ⟨side, "wasm.vault", "transfer", "unordered", [], 2, .nan⟩

/-- Runs of hermes: a try to open a channel that fails and one that opens it, and two deliveries
that find nothing. -/
def openedAtSecondTry : List ProcessResult :=
  let opened : Text :=
    text "\x7b\"result\":\x7b\"a_side\":\x7b\"channel_id\":\"channel-7\"\x7d," ++
      text "\"b_side\":\x7b\"channel_id\":\"channel-3\"\x7d\x7d\x7d"
  let nothing : ProcessResult := { stdout := "\x7b\"result\":[]\x7d" }
  [{ code := 1 }, { stdout := opened }, nothing, nothing]

/-- A call from chain B and one from a side that there is not. -/
def openingCalls : List LinkUse := [.openChannel (openingFrom "B"), .openChannel (openingFrom "C")]

/-- The link after the channel was opened from chain B; the other call opened nothing. -/
def openedFromB : LinkInUse (Logged RelayEntry (List ProcessResult)) :=
  used "hermes" scripted (fun _ => pure ()) noChannels openedAtSecondTry openingCalls

/-- Delivering from chain A over that channel. -/
def deliveringFromA : List Text :=
  packetLine "hermes" .receive "chain-b" "chain-a" "transfer" "channel-3"

/-- Chain A has the end with the second port and the id of the second side of the answer. -/
theorem relay_namesKnownEnds_openedFromB :
    noChannels.chainA.chainId ≠ noChannels.chainB.chainId ∧
      ∃ openings : List (Opening "hermes" noChannels), OpenedBy noChannels openings openedFromB ∧
        openings.length = 1 ∧ NamesKnownEnd noChannels openings deliveringFromA := by
  have hids : noChannels.chainA.chainId ≠ noChannels.chainB.chainId := by decide
  have hopened : openedFromB.opened.length = 1 := by decide +kernel
  obtain ⟨openings, h, hrelays⟩ := relay_namesKnownEnds "hermes" scripted (fun _ => pure ())
    noChannels hids openedAtSecondTry openingCalls
  obtain ⟨sweeps, hlog, hsweeps, -⟩ := hrelays 6 .nan _ _ rfl
  have hcheck : ((openedFromB.link.relay (notedHermes "hermes" scripted)
      (fun _ => Logged.lift (pure ())) 6 .nan).outcome openedFromB.world).2.log.drop
        openedFromB.world.log.length |>.any fun
      | .ran line _ => line == deliveringFromA
      | .sweep => false := by decide +kernel
  obtain ⟨entry, hentry, hline⟩ := List.any_eq_true.1 hcheck
  have hmem : entry ∈ sweeps.flatMap (RelayEntry.sweep :: ·) := by
    have hdrop := congrArg (List.drop openedFromB.world.log.length) hlog
    rw [openedFromB, List.drop_left] at hdrop
    rw [← hdrop]
    exact hentry
  obtain ⟨entries, hentries, hin⟩ := List.mem_flatMap.1 hmem
  refine ⟨hids, openings, h, ?_, ?_⟩
  · rw [← hopened, openedFromB, h.calls, List.length_map]
  · rcases List.mem_cons.1 hin with rfl | hran
    · cases hline
    · obtain ⟨line, ended, rfl, hnames⟩ := (hsweeps entries hentries).2 entry hran
      rwa [beq_iff_eq.1 hline] at hnames

end Hermes

end CrossChain
