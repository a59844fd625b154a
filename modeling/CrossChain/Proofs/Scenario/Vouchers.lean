import CrossChain.Proofs.Bootstrap.Setup
import CrossChain.Proofs.Outcome.Exactness
import CrossChain.Proofs.Outcome.Written
import CrossChain.Proofs.Relay.Retries
import CrossChain.Rehearsal.Address
import CrossChain.Scenario

/-!
# Vouchers

A chain of a campaign knows one denomination of the tokens that come from the other: that of the
other chain's fee token, fixed when the campaign starts and never changed after that
(`Reached.voucher`).  A coin that is sent across is looked for under this denomination, whatever its
own is (`sendRemote_checks_feeVoucher`); so another coin is missed where it arrived
(`sendRemote_misses_uion`).
-/

namespace CrossChain

namespace Scenario

variable {σ : Type}

/-! ## Campaigns in the course of a run -/

/-- A campaign that was started, and then perhaps changed by the steps that change one, whether
these succeeded or not. -/
inductive Reached [Json.Limits] : Campaign σ → Prop
  | started {r : Relayer σ} {o : Outside σ} {a b : ChainDefinition} {mnemonic : Text}
    {connectionA connectionB : Option Text} {c : Campaign σ} {s t : σ}
    (starts : Campaign.start r o a b mnemonic connectionA connectionB s = .ok c t) : Reached c
  | installed {c : Campaign σ} (contracts : Table Path) (directory : Option Path) (site : Site σ)
    (reached : Reached c) :
    Reached ((installSystem contracts directory).final ⟨c, site⟩).campaign
  | opened {c : Campaign σ} (r : Relayer σ) (o : Outside σ) (site : Site σ)
    (reached : Reached c) : Reached ((openKernelChannel r o).final ⟨c, site⟩).campaign
  | addressed {c : Campaign σ} (side : Side) (addresses : Table Json) (reached : Reached c) :
    Reached (c.withEndpoint side ((c.endpoint side).withAddresses addresses))

/-- The chain of a side has the denomination of the other chain's fee token. -/
def HasVoucher (c : Campaign σ) (side : Side) : Prop :=
  Denom.afterHop (c.endpoint side).definition.ics20Port (c.endpoint side).ics20Channel
    (c.counterparty side).definition.denomFee = .ok (c.endpoint side).ibcDenom

section Reached

theorem hasVoucher_of_startingEndpoint {d other : ChainDefinition} {client : ChainClient σ}
    {e : Endpoint σ} (h : Campaign.startingEndpoint d other client = .ok e) :
    e.definition = d ∧ Denom.afterHop d.ics20Port e.ics20Channel other.denomFee =
      .ok e.ibcDenom := by
  obtain ⟨voucher, hvoucher, he⟩ := Act.except_bind_eq_ok h
  cases he
  exact ⟨rfl, hvoucher⟩

theorem hasVoucher_of_start {r : Relayer σ} {o : Outside σ} {a b : ChainDefinition}
    {mnemonic : Text} {connectionA connectionB : Option Text} {c : Campaign σ} {s t : σ}
    (h : Campaign.start r o a b mnemonic connectionA connectionB s = .ok c t) (side : Side) :
    HasVoucher c side := by
  obtain ⟨⟨clientA, clientB⟩, u, -, h⟩ := Act.bind_eq_ok h
  obtain ⟨endA, v, hA, h⟩ := Act.bind_eq_ok h
  obtain ⟨endB, w, hB, h⟩ := Act.bind_eq_ok h
  obtain ⟨link, x, -, h⟩ := Act.bind_eq_ok h
  cases h
  obtain ⟨rfl, hvoucherA⟩ := hasVoucher_of_startingEndpoint (Act.ofExcept_eq_ok hA).1
  obtain ⟨rfl, hvoucherB⟩ := hasVoucher_of_startingEndpoint (Act.ofExcept_eq_ok hB).1
  cases side with
  | a => exact hvoucherA
  | b => exact hvoucherB

/-- What a chain may have of other tokens is the same. -/
def SameTokens (e e' : Endpoint σ) : Prop :=
  e'.definition = e.definition ∧ e'.ics20Channel = e.ics20Channel ∧ e'.ibcDenom = e.ibcDenom

/-- Whatever else was done, no chain has other denominations. -/
def KeepsTokens (s t : Run σ) : Prop :=
  SameTokens s.campaign.a t.campaign.a ∧ SameTokens s.campaign.b t.campaign.b

instance keepsTokens_refl : Std.Refl (KeepsTokens : Run σ → Run σ → Prop) :=
  ⟨fun _ => ⟨⟨rfl, rfl, rfl⟩, rfl, rfl, rfl⟩⟩

instance keepsTokens_trans : IsTrans (Run σ) KeepsTokens where
  trans s t u := by
    rintro ⟨⟨h₁, h₂, h₃⟩, h₄, h₅, h₆⟩ ⟨⟨k₁, k₂, k₃⟩, k₄, k₅, k₆⟩
    exact ⟨⟨k₁.trans h₁, k₂.trans h₂, k₃.trans h₃⟩, k₄.trans h₄, k₅.trans h₅, k₆.trans h₆⟩

theorem within_onSite {α : Type} (x : Act (Site σ) α) : Act.Within KeepsTokens (Run.onSite x) := by
  intro s
  rw [Run.onSite, Act.final_on]
  exact ⟨⟨rfl, rfl, rfl⟩, rfl, rfl, rfl⟩

theorem within_installSystem [Json.Limits] (contracts : Table Path) (directory : Option Path) :
    Act.Within (KeepsTokens (σ := σ)) (installSystem contracts directory) := by
  refine Act.within_get.bind fun s => (within_onSite _).bind fun ends => ?_
  refine Act.Within.bind (fun s => ⟨⟨rfl, rfl, rfl⟩, rfl, rfl, rfl⟩) fun _ => ?_
  exact Act.within_get.bind fun s => within_onSite _

theorem within_openKernelChannel (r : Relayer σ) (o : Outside σ) :
    Act.Within KeepsTokens (openKernelChannel r o) := by
  refine Act.within_get.bind fun s => (Act.within_ofExcept _).bind fun kernelA => ?_
  refine (Act.within_ofExcept _).bind fun kernelB => (within_onSite _).bind fun opened => ?_
  refine Act.Within.bind (fun s => ⟨⟨rfl, rfl, rfl⟩, rfl, rfl, rfl⟩) fun _ => ?_
  exact Act.within_pure _

theorem HasVoucher.keep {s t : Run σ} (h : ∀ side, HasVoucher s.campaign side)
    (hkeeps : KeepsTokens s t) (side : Side) : HasVoucher t.campaign side := by
  obtain ⟨⟨hdefA, hchannelA, hdenomA⟩, hdefB, hchannelB, hdenomB⟩ := hkeeps
  have hside := h side
  cases side with
  | a =>
    simp only [HasVoucher, Campaign.endpoint, Campaign.counterparty, Side.pick] at hside ⊢
    rw [hdefA, hdefB, hchannelA, hdenomA]
    exact hside
  | b =>
    simp only [HasVoucher, Campaign.endpoint, Campaign.counterparty, Side.pick] at hside ⊢
    rw [hdefA, hdefB, hchannelB, hdenomB]
    exact hside

/-- In every campaign both chains have the denomination of the other's fee token. -/
theorem Reached.voucher [Json.Limits] {c : Campaign σ} (h : Reached c) (side : Side) :
    HasVoucher c side := by
  induction h generalizing side with
  | started starts => exact hasVoucher_of_start starts side
  | installed contracts directory site _ ih =>
    exact HasVoucher.keep (s := ⟨_, site⟩) ih (within_installSystem contracts directory _) side
  | opened r o site _ ih =>
    exact HasVoucher.keep (s := ⟨_, site⟩) ih (within_openKernelChannel r o _) side
  | addressed target addresses _ ih =>
    cases target <;> cases side
    · exact ih .a
    · exact ih .b
    · exact ih .a
    · exact ih .b

end Reached

/-! ## Coins on their way -/

section Transfer

variable [Json.Limits] (r : Relayer σ) (o : Outside σ) (c : Campaign σ) (side : Side) (coin : Coin)

/-- A coin was sent from a side to a fresh address across and relayed, and the relay passed for
one that moved it; `u` is the state after that. -/
def Relayed (s : σ) (receiver : Text) (u : σ) : Prop :=
  ∃ s₁ s₂ hash first info,
    o.freshAddress (c.counterparty side).definition.addressPrefix s = .ok receiver s₁ ∧
    (send (c.endpoint side) (Recipient.remote (c.counterparty side).name receiver) [coin]) s₁ =
      .ok hash s₂ ∧
    relay r o c s₂ = .ok (first, info) u ∧
    (first = true → info.check 1 true side = .ok ())

/-- A coin was sent from a side to a fresh address across, and the first sweep of the relayer moved
one packet, which was acknowledged with a result. -/
def Delivered (s : σ) (receiver : Text) (u : σ) : Prop :=
  ∃ s₁ s₂ hash info ack,
    o.freshAddress (c.counterparty side).definition.addressPrefix s = .ok receiver s₁ ∧
    (send (c.endpoint side) (Recipient.remote (c.counterparty side).name receiver) [coin]) s₁ =
      .ok hash s₂ ∧
    r.relayAll c.link s₂ = .ok info u ∧
    info.sentFrom side = (1, [ack]) ∧ ack.body.Answers true

variable {r o c side coin}

theorem relayOne_eq_ok {success : Bool} {s u : σ} :
    relayOne r o c success side s = .ok () u ↔
      ∃ first info, relay r o c s = .ok (first, info) u ∧
        (first = true → info.check 1 success side = .ok ()) := by
  constructor
  · intro h
    obtain ⟨⟨first, info⟩, v, hrelay, h⟩ := Act.bind_eq_ok h
    obtain ⟨checked, w, hcheck, h⟩ := Act.bind_eq_ok h
    cases h
    obtain ⟨hpassed, rfl⟩ := Act.ofExcept_eq_ok hcheck
    refine ⟨first, info, hrelay, ?_⟩
    rintro rfl
    obtain ⟨_, hpassed, -⟩ := Act.except_bind_eq_ok hpassed
    exact hpassed
  · rintro ⟨first, info, hrelay, hcheck⟩
    rw [relayOne, Act.bind_run_ok hrelay]
    cases first with
    | false => rfl
    | true =>
      have hpassed : info.checkFirst true 1 success side = .ok true := by
        show (info.check 1 success side >>= fun _ => pure true) = _
        rw [hcheck rfl]
        rfl
      simp only [hpassed]
      rfl

omit [Json.Limits] in
theorem checkBalance_of_ok {e : Endpoint σ} {address : Json} {expected held : Coin} {s t : σ}
    (h : e.client.balance address expected.denom s = .ok held t) :
    e.checkBalance address expected s =
      if held.amount = expected.amount then .ok () t
      else .error (.mismatch
        (.balance e.name address held.amount expected.amount expected.denom)) t := by
  rw [Endpoint.checkBalance, Act.bind_run_ok h]
  by_cases hamount : held.amount = expected.amount
  · rw [if_neg (by simpa using hamount), if_pos hamount]
    rfl
  · rw [if_pos (by simpa using hamount), if_neg hamount]
    rfl

/-- A coin that was relayed is looked for under the denomination that the other chain has. -/
theorem sendRemote_of_relayed {s u t : σ} {receiver : Text} {held : Coin}
    (h : Relayed r o c side coin s receiver u)
    (hheld : (c.counterparty side).client.balance (.str receiver)
      (.str (c.counterparty side).ibcDenom) u = .ok held t) :
    sendRemote r o c side coin s =
      if held.amount = coin.amount then .ok receiver t
      else .error (.mismatch (.balance (c.counterparty side).name (.str receiver) held.amount
        coin.amount (.str (c.counterparty side).ibcDenom))) t := by
  obtain ⟨s₁, s₂, hash, first, info, hfresh, hsend, hrelay, hcheck⟩ := h
  have hpassed : relayOne r o c true side s₂ = .ok () u :=
    relayOne_eq_ok.2 ⟨first, info, hrelay, hcheck⟩
  have hbalance : (c.counterparty side).checkBalance (.str receiver)
      ⟨coin.amount, .str (c.counterparty side).ibcDenom⟩ u = _ := checkBalance_of_ok hheld
  rw [sendRemote, Act.bind_run_ok hfresh, Act.bind_run_ok hsend, Act.bind_run_ok hpassed]
  by_cases hamount : held.amount = coin.amount
  · rw [if_pos hamount] at hbalance ⊢
    exact Act.bind_run_ok hbalance
  · rw [if_neg hamount] at hbalance ⊢
    exact Act.bind_run_error hbalance

theorem sendRemote_eq_ok {s t : σ} {receiver : Text} :
    sendRemote r o c side coin s = .ok receiver t ↔
      ∃ u held, Relayed r o c side coin s receiver u ∧
        (c.counterparty side).client.balance (.str receiver)
          (.str (c.counterparty side).ibcDenom) u = .ok held t ∧
        held.amount = coin.amount := by
  constructor
  · intro h
    obtain ⟨receiver', s₁, hfresh, h⟩ := Act.bind_eq_ok h
    obtain ⟨hash, s₂, hsend, h⟩ := Act.bind_eq_ok h
    obtain ⟨_, u, hpassed, h⟩ := Act.bind_eq_ok h
    obtain ⟨_, v, hbalance, h⟩ := Act.bind_eq_ok h
    cases h
    obtain ⟨first, info, hrelay, hcheck⟩ := relayOne_eq_ok.1 hpassed
    obtain ⟨held, w, hheld, -⟩ := Act.bind_eq_ok hbalance
    rw [checkBalance_of_ok hheld] at hbalance
    refine ⟨u, held, ⟨s₁, s₂, hash, first, info, hfresh, hsend, hrelay, hcheck⟩, ?_⟩
    split at hbalance
    · next hamount =>
      cases hbalance
      exact ⟨hheld, hamount⟩
    · cases hbalance
  · rintro ⟨u, held, hrelayed, hheld, hamount⟩
    rw [sendRemote_of_relayed hrelayed hheld, if_pos hamount]

theorem Delivered.relayed {s u : σ} {receiver : Text} (h : Delivered r o c side coin s receiver u) :
    Relayed r o c side coin s receiver u := by
  obtain ⟨s₁, s₂, hash, info, ack, hfresh, hsend, hsweep, hsent, hanswers⟩ := h
  refine ⟨s₁, s₂, hash, true, info, hfresh, hsend, Sweep.within_of_ok _ true hsweep, fun _ => ?_⟩
  rw [RelayInfo.check_eq_ok, RelayInfo.Counted, hsent]
  exact ⟨⟨rfl, rfl⟩, List.forall_mem_singleton.2 hanswers⟩

variable (r o side coin) in
/-- In every campaign, from either side, a coin of any denomination that is sent across is looked
for as the voucher of the fee token of the chain it comes from: sending it succeeds exactly if,
after a relay that passed, the receiver has its amount of that voucher.  Where the first sweep
delivered it, nothing but this one balance decides, and what the receiver has of the voucher of the
coin itself does not matter unless the coin is of the fee token. -/
theorem sendRemote_checks_feeVoucher (hc : Reached c) (s : σ) :
    ∃ voucher,
      Denom.afterHop (c.counterparty side).definition.ics20Port (c.counterparty side).ics20Channel
        (c.endpoint side).definition.denomFee = .ok voucher ∧
      (∀ receiver t, sendRemote r o c side coin s = .ok receiver t ↔
        ∃ u held, Relayed r o c side coin s receiver u ∧
          (c.counterparty side).client.balance (.str receiver) (.str voucher) u = .ok held t ∧
          held.amount = coin.amount) ∧
      ∀ receiver u held t, Delivered r o c side coin s receiver u →
        (c.counterparty side).client.balance (.str receiver) (.str voucher) u = .ok held t →
        sendRemote r o c side coin s =
          if held.amount = coin.amount then .ok receiver t
          else .error (.mismatch (.balance (c.counterparty side).name (.str receiver) held.amount
            coin.amount (.str voucher))) t := by
  have hvoucher : HasVoucher c side.other := hc.voucher side.other
  refine ⟨(c.counterparty side).ibcDenom, ?_, fun receiver t => sendRemote_eq_ok,
    fun receiver u held t hdelivered hheld => sendRemote_of_relayed hdelivered.relayed hheld⟩
  cases side with
  | a => exact hvoucher
  | b => exact hvoucher

end Transfer

/-! ## A coin that is not of the fee token -/

section Missed

/-- A chain on which everything succeeds, and one account has a hundred of one denomination. -/
def holding (account denom : Text) (d : ChainDefinition) : ChainClient Unit where
  chainId := d.chainId
  sender := d.faucet.address
  answer
    | .upload .. => return (1 : Int)
    | .instantiate .. => return text "osmo1contract"
    | .execute .. => return text "A1B2"
    | .query .. => return Json.null
    | .balance address asked =>
      return (⟨if address.isText account && asked.isText denom then "100" else "0", asked⟩ : Coin)
    | .sendTokens .. => return (none : Option Text)

/-- What a sweep reports of one packet from chain A that was acknowledged with a result. -/
def moved : RelayInfo where
  packetsFromA := 1
  acksFromB := [{ body := .text "\x7b\"result\":\"MQ==\"\x7d" }]

/-- A relayer whose every sweep delivers one packet from chain A. -/
def delivering : Relayer Unit where
  answer
    | .relayAll _ => return moved
    | _ => throw (.relay (.ofMessage "nothing but sweeps"))

/-- The address of twenty zero bytes. -/
def zeroAddress : Text := "osmo1qqqqqqqqqqqqqqqqqqqqqqqqqqqqqqqqmcn030"

/-- An outside world with chains on which the fresh address has a hundred of one denomination. -/
def crediting (denom : Text) : Outside Unit where
  __ := Outside.offline
  addressOf := Bech32.write
  connect d _ := return holding zeroAddress denom d

/-- The first of two local chains. -/
def localA : ChainDefinition :=
  Settings.localChain (fun _ => none) "localhost" "osmo-a" "localosmosis-1" "OSMO_A" "20121" "20221"

/-- The second of two local chains. -/
def localB : ChainDefinition :=
  Settings.localChain (fun _ => none) "localhost" "osmo-b" "localosmosis-2" "OSMO_B" "20122" "20222"

/-- The denomination of `uosmo` after one hop over the channel for plain transfers. -/
def uosmoVoucher : Text := "ibc/ED07A3391A112B175915CD8FAF43A2DA8E4790EDE12566649D0C2F97716B8518"

/-- The denomination of `uion` after the same hop. -/
def uionVoucher : Text := "ibc/F7E92EE59B5428793F3EF5C1A4CB2494F61A9D0C9A69469D02390714A1372E16"

theorem afterHop_uosmo : Denom.afterHop "transfer" "channel-0" "uosmo" = .ok uosmoVoucher := by
  have hvoucher : (Denom.afterHop "transfer" "channel-0" "uosmo").toOption = some uosmoVoucher := by
    decide +kernel
  exact Act.ok_of_toOption hvoucher

theorem afterHop_uion : Denom.afterHop "transfer" "channel-0" "uion" = .ok uionVoucher := by
  have hvoucher : (Denom.afterHop "transfer" "channel-0" "uion").toOption = some uionVoucher := by
    decide +kernel
  exact Act.ok_of_toOption hvoucher

/-- A local chain at the start of a campaign. -/
def startingAt (denom : Text) (d : ChainDefinition) : Endpoint Unit where
  name := d.name
  definition := d
  client := holding zeroAddress denom d
  ics20Channel := Settings.ics20Channel
  ibcDenom := uosmoVoucher

/-- The two local chains, linked, with a kernel on the first. -/
def localCampaign (denom : Text) : Campaign Unit where
  a := (startingAt denom localA).withAddresses [(kernelName, .str "osmo1kernela1")]
  b := startingAt denom localB
  link := {
    chainA := localA, chainB := localB
    connectionA := .str "connection-0", connectionB := .str "connection-0"
    channels := [Campaign.transferChannel localA localB] }

theorem reached_localCampaign (denom : Text) : Reached (localCampaign denom) := by
  have hstart : Campaign.start delivering (crediting denom) localA localB []
      (some "connection-0") (some "connection-0") () =
        .ok { localCampaign denom with a := startingAt denom localA } () := by
    have hA : Campaign.startingEndpoint localA localB (holding zeroAddress denom localA) =
        .ok (startingAt denom localA) := congrArg (Except.map _) afterHop_uosmo
    have hB : Campaign.startingEndpoint localB localA (holding zeroAddress denom localB) =
        .ok (startingAt denom localB) := congrArg (Except.map _) afterHop_uosmo
    have hconnect : Act.awaitBoth ((crediting denom).connect localA [])
        ((crediting denom).connect localB []) () =
          .ok (holding zeroAddress denom localA, holding zeroAddress denom localB) () := rfl
    rw [Campaign.start]
    refine (Act.bind_run_ok hconnect).trans ?_
    simp only [hA, hB]
    rfl
  exact .addressed .a [(kernelName, .str "osmo1kernela1")] (.started hstart)

/-- Every coin is delivered to the fresh address on the second chain. -/
theorem delivered_localCampaign (credited amount denom : Text) :
    Delivered delivering (crediting credited) (localCampaign credited) .a ⟨amount, .str denom⟩ ()
      zeroAddress () := by
  have hencoded : Bech32.encode? "osmo" (List.replicate 20 0) = some zeroAddress := by
    decide +kernel
  have hname : (text "result").all Json.isPlain = true := by decide
  have hvalue : (text "MQ==").all Json.isPlain = true := by decide
  have hobject : Json.ObjectText "\x7b\"result\":\"MQ==\"\x7d"
      [(AckBody.member true, .str "MQ==")] := Json.objectText_plain hname hvalue
  have hack : (AckBody.text "\x7b\"result\":\"MQ==\"\x7d").Answers true :=
    ⟨_, AckBody.decode_oneString true rfl hobject⟩
  refine ⟨(), (), "A1B2", moved, _, ?_, rfl, rfl, rfl, hack⟩
  have hbytes : (crediting credited).randomBytes 20 () = .ok (List.replicate 20 0) () := rfl
  show Outside.freshAddress (crediting credited) "osmo" () = _
  refine (Act.bind_run_ok hbytes).trans ?_
  show Act.ofExcept (Bech32.write "osmo" (List.replicate 20 0)) () = _
  rw [Bech32.write, hencoded]
  rfl

/-- A hundred `uosmo` arrive where the fresh address got their voucher. -/
theorem sendRemote_checks_uosmo : Reached (localCampaign uosmoVoucher) ∧
    sendRemote delivering (crediting uosmoVoucher) (localCampaign uosmoVoucher) .a
      ⟨"100", .str "uosmo"⟩ () = .ok zeroAddress () := by
  have hc := reached_localCampaign uosmoVoucher
  obtain ⟨voucher, hvoucher, -, hdelivered⟩ := sendRemote_checks_feeVoucher delivering
    (crediting uosmoVoucher) .a ⟨"100", .str "uosmo"⟩ hc ()
  cases hvoucher.symm.trans afterHop_uosmo
  exact ⟨hc, hdelivered zeroAddress () _ () (delivered_localCampaign _ _ _) rfl⟩

/-- A hundred `uion` are delivered and the fresh address gets them under their voucher, but they are
missed, for it has nothing of the voucher of `uosmo`. -/
theorem sendRemote_misses_uion :
    Reached (localCampaign uionVoucher) ∧
      Denom.afterHop "transfer" "channel-0" "uion" = .ok uionVoucher ∧
      Delivered delivering (crediting uionVoucher) (localCampaign uionVoucher) .a
        ⟨"100", .str "uion"⟩ () zeroAddress () ∧
      (localCampaign uionVoucher).b.client.balance (.str zeroAddress) (.str uionVoucher) () =
        .ok ⟨"100", .str uionVoucher⟩ () ∧
      sendRemote delivering (crediting uionVoucher) (localCampaign uionVoucher) .a
          ⟨"100", .str "uion"⟩ () =
        .error (.mismatch (.balance "osmo-b" (.str zeroAddress) "0" "100" (.str uosmoVoucher)))
          () := by
  have hdelivered := delivered_localCampaign uionVoucher "100" "uion"
  exact ⟨reached_localCampaign uionVoucher, afterHop_uion, hdelivered, rfl,
    sendRemote_of_relayed hdelivered.relayed rfl⟩

end Missed

end Scenario

end CrossChain
