import CrossChain.Proofs.Relay.LastSweep

/-!
# Plans of a sweep

A sweep has a plan: for each channel in order, deliver from chain A and carry acknowledgements back,
then the same from chain B.  Each of its commands is given by the chain it calls the source and the
end of the channel that it names there (`PacketCommand`).  A sweep of hermes follows its plan,
however it ends: it leaves out no delivery before the last run it makes, and nothing but commands of
the plan is run (`carries_relayAll`).  A relay is a number of such sweeps (`sweeps_relay`).
-/

namespace CrossChain

/-! ## Ends by side -/

/-- The end of a channel on a side. -/
def ChannelPair.endOn (p : ChannelPair) (side : Side) : ChannelEnd := side.pick p.src p.dest

/-- The chain of a side. -/
def Link.chain (link : Link) (side : Side) : ChainDefinition := side.pick link.chainA link.chainB

namespace Hermes

/-! ## Commands -/

/-- What is done with packets at the source of a command. -/
inductive PacketKind
  | receive
  | acknowledge

/-- The word for it. -/
def PacketKind.word : PacketKind → Text
  | receive => "packet-recv"
  | acknowledge => "packet-ack"

/-- A command that moves packets or acknowledgements over a channel from a side. -/
structure PacketCommand where
  kind : PacketKind
  source : Side
  channel : ChannelPair

/-- The arguments of a command on a link: the chain across, the chain of the source, and the end of
the channel on that chain. -/
def PacketCommand.arguments (link : Link) (c : PacketCommand) : List Json :=
  [.str "tx", .str c.kind.word, .str "--dst-chain", .str (link.chain c.source.other).chainId,
    .str "--src-chain", .str (link.chain c.source).chainId,
    .str "--src-port", .str (c.channel.endOn c.source).port,
    .str "--src-channel", (c.channel.endOn c.source).channel]

/-- The words of such a command. -/
def packetLine (binary : Text) (kind : PacketKind) (dst src port channel : Text) : List Text :=
  [binary, "--json", "tx", kind.word, "--dst-chain", dst, "--src-chain", src, "--src-port", port,
    "--src-channel", channel]

theorem line_of_packetCommand {binary : Text} {link : Link} {c : PacketCommand} {line : List Text}
    (h : commandLine binary (c.arguments link) = .ok line) :
    ∃ channel, (c.channel.endOn c.source).channel = .str channel ∧
      line = packetLine binary c.kind (link.chain c.source.other).chainId
        (link.chain c.source).chainId (c.channel.endOn c.source).port channel := by
  unfold PacketCommand.arguments at h
  cases hchannel : (c.channel.endOn c.source).channel with
  | str channel =>
    rw [hchannel] at h
    cases h
    exact ⟨channel, rfl, rfl⟩
  | _ =>
    rw [hchannel] at h
    cases h

/-- What is planned over a channel: acknowledgements go back from the other side. -/
def channelPlan (channel : ChannelPair) : List PacketCommand :=
  [⟨.receive, .a, channel⟩, ⟨.acknowledge, .b, channel⟩,
    ⟨.receive, .b, channel⟩, ⟨.acknowledge, .a, channel⟩]

/-- The plan of a sweep: the channels in order. -/
def plan (channels : List ChannelPair) : List PacketCommand := channels.flatMap channelPlan

/-! ## Following a plan -/

/-- Runs of hermes follow a plan: its commands in turn, of which only acknowledgements may be left
out.  They come to the end of the plan, or stop on the way. -/
inductive Follows (binary : Text) (link : Link) : Bool → List PacketCommand → List RelayEntry → Prop
  | finished : Follows binary link true [] []
  | stopped (commands : List PacketCommand) : Follows binary link false commands []
  | ran {whole : Bool} {commands : List PacketCommand} {entries : List RelayEntry}
    (c : PacketCommand) (line : List Text) (ended : Except Failure ProcessResult)
    (isLine : commandLine binary (c.arguments link) = .ok line)
    (rest : Follows binary link whole commands entries) :
    Follows binary link whole (c :: commands) (.ran line ended :: entries)
  | leftOut {whole : Bool} {commands : List PacketCommand} {entries : List RelayEntry}
    (c : PacketCommand) (isAcknowledge : c.kind = .acknowledge)
    (rest : Follows binary link whole commands entries) :
    Follows binary link whole (c :: commands) entries

namespace Follows

variable {binary : Text} {link : Link} {commands commands' : List PacketCommand}
  {entries entries' : List RelayEntry}

theorem append {whole : Bool} (h : Follows binary link true commands entries)
    (h' : Follows binary link whole commands' entries') :
    Follows binary link whole (commands ++ commands') (entries ++ entries') := by
  generalize htrue : true = b at h
  induction h with
  | finished => exact h'
  | stopped => cases htrue
  | ran c line ended isLine _ ih => exact .ran c line ended isLine (ih htrue)
  | leftOut c isAcknowledge _ ih => exact .leftOut c isAcknowledge (ih htrue)

theorem append_plan (commands' : List PacketCommand)
    (h : Follows binary link false commands entries) :
    Follows binary link false (commands ++ commands') entries := by
  generalize hfalse : false = b at h
  induction h with
  | finished => cases hfalse
  | stopped => exact .stopped _
  | ran c line ended isLine _ ih => exact .ran c line ended isLine (ih hfalse)
  | leftOut c isAcknowledge _ ih => exact .leftOut c isAcknowledge (ih hfalse)

/-- Every run is that of a planned command. -/
theorem exists_command {whole : Bool} (h : Follows binary link whole commands entries)
    {entry : RelayEntry} (hentry : entry ∈ entries) :
    ∃ c ∈ commands, ∃ line ended, entry = .ran line ended ∧
      commandLine binary (c.arguments link) = .ok line := by
  induction h with
  | finished => cases hentry
  | stopped => cases hentry
  | ran c line ended isLine _ ih =>
    rcases List.mem_cons.1 hentry with rfl | hrest
    · exact ⟨c, List.mem_cons_self, line, ended, rfl, isLine⟩
    · obtain ⟨c', hc', hrun⟩ := ih hrest
      exact ⟨c', List.mem_cons_of_mem c hc', hrun⟩
  | leftOut c _ _ ih =>
    obtain ⟨c', hc', hrun⟩ := ih hentry
    exact ⟨c', List.mem_cons_of_mem c hc', hrun⟩

end Follows

theorem mem_plan {channels : List ChannelPair} {c : PacketCommand} (h : c ∈ plan channels) :
    c.channel ∈ channels := by
  obtain ⟨channel, hchannel, hc⟩ := List.mem_flatMap.1 h
  simp only [channelPlan, List.mem_cons, List.not_mem_nil, or_false] at hc
  rcases hc with rfl | rfl | rfl | rfl <;> exact hchannel

/-! ## Acts that follow a plan -/

section Carries

variable {σ α β : Type} {binary : Text} {link : Link} {commands commands' : List PacketCommand}

/-- The runs of an act follow a plan, to its end if the act succeeds. -/
def Carries (binary : Text) (link : Link) (commands : List PacketCommand)
    (x : Act (Logged RelayEntry σ) α) : Prop :=
  ∀ s, (∃ a t l, x s = .ok a t ∧ t.log = s.log ++ l ∧ Follows binary link true commands l) ∨
    ∃ e t l, x s = .error e t ∧ t.log = s.log ++ l ∧ Follows binary link false commands l

theorem carries_pure (a : α) : Carries binary link [] (pure a : Act (Logged RelayEntry σ) α) :=
  fun s => .inl ⟨a, s, [], rfl, (List.append_nil _).symm, .finished⟩

theorem carries_ofExcept (r : Except Failure α) :
    Carries binary link [] (Act.ofExcept r : Act (Logged RelayEntry σ) α) := by
  cases r with
  | ok a => exact carries_pure a
  | error e => exact fun s => .inr ⟨e, s, [], rfl, (List.append_nil _).symm, .stopped _⟩

theorem Carries.bind {x : Act (Logged RelayEntry σ) α} {f : α → Act (Logged RelayEntry σ) β}
    (hx : Carries binary link commands x) (hf : ∀ a, Carries binary link commands' (f a)) :
    Carries binary link (commands ++ commands') (x >>= f) := by
  intro s
  rcases hx s with ⟨a, t, l, hrun, hlog, hl⟩ | ⟨e, t, l, hrun, hlog, hl⟩
  · rw [Act.bind_run_ok hrun]
    rcases hf a t with ⟨b, u, l', hrun', hlog', hl'⟩ | ⟨e, u, l', hrun', hlog', hl'⟩
    · exact .inl ⟨b, u, l ++ l', hrun', by rw [hlog', hlog, List.append_assoc], hl.append hl'⟩
    · exact .inr ⟨e, u, l ++ l', hrun', by rw [hlog', hlog, List.append_assoc], hl.append hl'⟩
  · exact .inr ⟨e, t, l, Act.bind_run_error hrun, hlog, hl.append_plan commands'⟩

theorem Carries.leaveOut {x : Act (Logged RelayEntry σ) α} (hx : Carries binary link commands x)
    {c : PacketCommand} (hc : c.kind = .acknowledge) :
    Carries binary link (c :: commands) x := by
  intro s
  rcases hx s with ⟨a, t, l, hrun, hlog, hl⟩ | ⟨e, t, l, hrun, hlog, hl⟩
  · exact .inl ⟨a, t, l, hrun, hlog, .leftOut c hc hl⟩
  · exact .inr ⟨e, t, l, hrun, hlog, .leftOut c hc hl⟩

theorem carries_foldlM {f : β → ChannelPair → Act (Logged RelayEntry σ) β}
    (hf : ∀ b channel, Carries binary link (channelPlan channel) (f b channel)) :
    ∀ (channels : List ChannelPair) (b : β),
      Carries binary link (plan channels) (channels.foldlM f b)
  | [], b => by
    rw [List.foldlM_nil]
    exact carries_pure b
  | channel :: channels, b => by
    rw [List.foldlM_cons]
    exact (hf b channel).bind fun b' => carries_foldlM hf channels b'

variable {run : List Text → Act σ ProcessResult}

theorem carries_notedRun {c : PacketCommand} {line : List Text}
    (isLine : commandLine binary (c.arguments link) = .ok line) :
    Carries binary link [c] (notedRun run line) := by
  intro s
  rcases Logged.notes_noting (.ran line) (run line) s with ⟨process, t, h⟩ | ⟨e, t, h⟩
  · exact .inl ⟨process, _, _, h, rfl, .ran c line _ isLine .finished⟩
  · exact .inr ⟨e, _, _, h, rfl, .ran c line _ isLine (.stopped [])⟩

theorem carries_command [Json.Limits] (c : PacketCommand) :
    Carries binary link [c] (command binary (notedRun run) (c.arguments link)) := by
  intro s
  unfold command
  cases hline : commandLine binary (c.arguments link) with
  | error e => exact .inr ⟨e, s, [], rfl, (List.append_nil _).symm, .stopped _⟩
  | ok line =>
    have hcarries : Carries binary link [c]
        (notedRun run line >>= fun process => Act.ofExcept process.result) :=
      (carries_notedRun hline).bind fun process => carries_ofExcept process.result
    exact hcarries s

/-- A delivery from a side follows its two commands. -/
theorem carries_relayDirection [Json.Limits] (channel : ChannelPair) (side : Side) :
    Carries binary link [⟨.receive, side, channel⟩, ⟨.acknowledge, side.other, channel⟩]
      (relayDirection binary (notedRun run) (link.chain side) (link.chain side.other)
        (channel.endOn side) (channel.endOn side.other)) := by
  have hreceive : Carries binary link [⟨.receive, side, channel⟩]
      (command binary (notedRun run)
        (receiveCommand (link.chain side) (link.chain side.other) (channel.endOn side))) :=
    carries_command ⟨.receive, side, channel⟩
  have hacknowledge : Carries binary link [⟨.acknowledge, side.other, channel⟩]
      (command binary (notedRun run) (acknowledgeCommand (link.chain side)
        (link.chain side.other) (channel.endOn side.other))) := by
    cases side <;> exact carries_command ⟨.acknowledge, _, channel⟩
  refine hreceive.bind fun result => (carries_ofExcept _).bind fun acks => ?_
  cases acks with
  | nil => exact (carries_pure _).leaveOut rfl
  | cons ack rest => exact hacknowledge.bind fun _ => carries_pure _

theorem carries_relayChannel [Json.Limits] (channel : ChannelPair) :
    Carries binary link (channelPlan channel)
      (relayChannel binary (notedRun run) link.chainA link.chainB channel) :=
  (carries_relayDirection channel .a).bind fun _ =>
    (carries_relayDirection channel .b).bind fun _ => carries_pure _

/-- A sweep of hermes follows the plan of its link. -/
theorem carries_relayAll [Json.Limits] :
    Carries binary link (plan link.channels) (relayAll binary (notedRun run) link) :=
  carries_foldlM (fun _ channel => (carries_relayChannel channel).bind fun _ => carries_pure _) _ _

end Carries

/-! ## Relays -/

section Sweeps

variable [Json.Limits] {σ : Type}

/-- What happened in between are sweeps over a link, each of which followed its plan to the end or
to where it stopped. -/
def Sweeps (binary : Text) (link : Link) (s t : Logged RelayEntry σ) : Prop :=
  ∃ sweeps : List (List RelayEntry),
    t.log = s.log ++ sweeps.flatMap (.sweep :: ·) ∧
      ∀ entries ∈ sweeps, ∃ whole, Follows binary link whole (plan link.channels) entries

variable {binary : Text} {link : Link}

instance sweeps_refl : Std.Refl (Sweeps binary link : Logged RelayEntry σ → _ → Prop) where
  refl _ := ⟨[], (List.append_nil _).symm, nofun⟩

instance sweeps_trans : IsTrans (Logged RelayEntry σ) (Sweeps binary link) where
  trans s t u := by
    rintro ⟨l, hl, hfollows⟩ ⟨l', hl', hfollows'⟩
    refine ⟨l ++ l', by rw [hl', hl, List.append_assoc, List.flatMap_append], fun w hw => ?_⟩
    exact (List.mem_append.1 hw).elim (hfollows w) (hfollows' w)

omit [Json.Limits] in
theorem sweeps_lift {α : Type} (x : Act σ α) : Act.Within (Sweeps binary link) (Logged.lift x) :=
  Logged.within_lift (fun _ _ h => ⟨[], by rw [h]; exact (List.append_nil _).symm, nofun⟩) x

theorem follows_notedSweep (binary : Text) (link : Link) (run : List Text → Act σ ProcessResult)
    (s : Logged RelayEntry σ) :
    ∃ whole entries, ((notedSweep binary run link).final s).log = s.log ++ .sweep :: entries ∧
      Follows binary link whole (plan link.channels) entries := by
  have hrecord : Logged.record .sweep s = .ok () ⟨s.log ++ [.sweep], s.inner⟩ := rfl
  have hfinal : (notedSweep binary run link).final s =
      (relayAll binary (notedRun run) link).final ⟨s.log ++ [.sweep], s.inner⟩ :=
    Act.final_bind_ok hrecord
  have hcarries : Carries binary link (plan link.channels)
    (relayAll binary (notedRun run) link) := carries_relayAll
  rw [hfinal]
  rcases hcarries ⟨s.log ++ [.sweep], s.inner⟩ with
    ⟨info, t, l, hrun, hlog, hl⟩ | ⟨e, t, l, hrun, hlog, hl⟩
  · exact ⟨true, l, by rw [Act.final_ok hrun, hlog, List.append_assoc]; rfl, hl⟩
  · exact ⟨false, l, by rw [Act.final_error hrun, hlog, List.append_assoc]; rfl, hl⟩

theorem sweeps_notedSweep (run : List Text → Act σ ProcessResult) :
    Act.Within (Sweeps binary link) (notedSweep binary run link) := by
  intro s
  obtain ⟨whole, entries, hlog, hfollows⟩ := follows_notedSweep binary link run s
  refine ⟨[entries], by rw [hlog, List.flatMap_singleton], fun w hw => ⟨whole, ?_⟩⟩
  rwa [List.mem_singleton.1 hw]

variable {run : List Text → Act σ ProcessResult} {sleep : Binary64 → Act σ Unit} {budget : Int}
  {delay : Binary64}

/-- A relay is a number of sweeps, however it ends. -/
theorem sweeps_relay :
    Act.Within (Sweeps binary link)
      (link.relay (Relayer.hermes binary (notedRun run)).notingSweeps
        (fun d => Logged.lift (sleep d)) budget delay) :=
  Sweep.within_within (sweeps_lift _) (sweeps_notedSweep run) _ _

/-- The last sweep of a relay that ends well makes an exchange over every channel, and what they
moved is the answer. -/
theorem relay_ok {s t : Logged RelayEntry σ} {first : Bool} {info : RelayInfo}
    (h : link.relay (Relayer.hermes binary (notedRun run)).notingSweeps
      (fun d => Logged.lift (sleep d)) budget delay s = .ok (first, info) t) :
    ∃ (earlier : List (List RelayEntry)) (xs : List (Exchange binary link.chainA link.chainB)),
      t.log = s.log ++ (earlier ++ [xs.flatMap Exchange.entries]).flatMap (.sweep :: ·) ∧
      (∀ entries ∈ earlier ++ [xs.flatMap Exchange.entries],
        ∃ whole, Follows binary link whole (plan link.channels) entries) ∧
      xs.map Exchange.pair = link.channels ∧ info = Exchange.total xs := by
  obtain ⟨n, u, hretries, hlastSweep, -⟩ := Sweep.within_ok budget.toNat h
  obtain ⟨earlier, hearlier, hfollows⟩ : Sweeps binary link s u :=
    hretries.related (sweeps_lift _) (sweeps_notedSweep run)
  have hsweep : notedSweep binary run link u = .ok info t := hlastSweep
  obtain ⟨xs, hpairs, hinfo, hlast⟩ := notedSweep_ok hsweep
  obtain ⟨whole, entries, hlog, hlastFollows⟩ := follows_notedSweep binary link run u
  -- Both speak of the last sweep: the exchanges are its entries.
  rw [Act.final_ok hsweep, hlast] at hlog
  obtain rfl : xs.flatMap Exchange.entries = entries :=
    (List.cons.inj (List.append_cancel_left hlog)).2
  refine ⟨earlier, xs, ?_, fun w hw => ?_, hpairs, hinfo⟩
  · rw [hlast, hearlier, List.flatMap_append, List.flatMap_singleton, List.append_assoc]
  · rcases List.mem_append.1 hw with hw | hw
    · exact hfollows w hw
    · exact ⟨whole, List.mem_singleton.1 hw ▸ hlastFollows⟩

end Sweeps

end Hermes

end CrossChain
