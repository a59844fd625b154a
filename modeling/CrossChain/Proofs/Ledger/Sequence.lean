import CrossChain.Proofs.Bootstrap.Calls
import CrossChain.Proofs.Ledger.Transactions
import CrossChain.Rehearsal.Address

/-!
# One transaction at a time

A client is asked one call after the other, whatever fails on the way.  In the log of its ledger
every broadcast is waited for and checked before anything else is asked, unless the operation that
made it failed; that operation broadcasts nothing more (`Sequenced`).
-/

namespace CrossChain

/-- A client is asked calls one after the other, whatever fails on the way. -/
def ChainClient.askAll {σ : Type} (client : ChainClient σ) (calls : List ChainCall) :
    Act σ (List Asked) :=
  calls.mapM fun call => return ⟨call, ← Act.attempt (client.answer call)⟩

namespace Asked

/-- A call failed. -/
def Failed (asked : Asked) : Prop := ∃ e, asked.ended = .error e

end Asked

/-- A call is about transactions that have to be waited for. -/
def ChainCall.transacts : ChainCall → Bool
  | execute .. | sendTokens .. => true
  | _ => false

namespace Ledger

/-! ## Order -/

/-- Nothing is broadcast. -/
def Quiet (l : List LedgerEntry) : Prop := ∀ entry ∈ l, ¬ entry.IsBroadcast

/-- What follows a broadcast starts with waiting for it and checking it, both of which went well. -/
def Settled (after : List LedgerEntry) : Prop :=
  ∃ rest, after = awaited (.ok ()) :: checked (.ok ()) :: rest

/-- Every broadcast is settled before anything else is asked, except for a last one if `failed`. -/
def Orderly (failed : Prop) (l : List LedgerEntry) : Prop :=
  ∀ before broadcast after, l = before ++ broadcast :: after → broadcast.IsBroadcast →
    Settled after ∨ failed ∧ Quiet after

theorem Settled.append {l : List LedgerEntry} (h : Settled l) (l' : List LedgerEntry) :
    Settled (l ++ l') := by
  obtain ⟨rest, rfl⟩ := h
  exact ⟨rest ++ l', rfl⟩

theorem quiet_nil : Quiet [] := nofun

theorem Quiet.cons {entry : LedgerEntry} {l : List LedgerEntry} (hentry : ¬ entry.IsBroadcast)
    (h : Quiet l) : Quiet (entry :: l) := List.forall_mem_cons.2 ⟨hentry, h⟩

theorem quiet_opened (account : Text) (ended : Except Failure Unit) :
    Quiet [opened account ended] := .cons Bool.false_ne_true quiet_nil

theorem quiet_awaited (ended : Except Failure Unit) : Quiet [awaited ended] :=
  .cons Bool.false_ne_true quiet_nil

theorem quiet_settling (ended ended' : Except Failure Unit) :
    Quiet [awaited ended, checked ended'] :=
  .cons Bool.false_ne_true (.cons Bool.false_ne_true quiet_nil)

section Orderly

variable {failed : Prop} {l l' : List LedgerEntry}

theorem Quiet.orderly (h : Quiet l) : Orderly failed l := by
  rintro before broadcast after rfl hbroadcast
  exact absurd hbroadcast (h broadcast (List.mem_append_right before List.mem_cons_self))

theorem Orderly.mono {failed' : Prop} (h : Orderly failed l) (himp : failed → failed') :
    Orderly failed' l := fun before broadcast after hsplit hbroadcast =>
  (h before broadcast after hsplit hbroadcast).imp_right (And.imp_left himp)

theorem Orderly.append (h : Orderly False l) (h' : Orderly failed l') :
    Orderly failed (l ++ l') := by
  intro before broadcast after hsplit hbroadcast
  rcases List.split_append_cons hsplit with ⟨before', -, hl'⟩ | ⟨rest, hl, rfl⟩
  · exact h' before' broadcast after hl' hbroadcast
  · rcases h before broadcast rest hl hbroadcast with hsettled | ⟨hfalse, -⟩
    · exact .inl (Settled.append hsettled l')
    · exact hfalse.elim

/-- One entry, and nothing broadcast after it. -/
theorem orderly_cons {entry : LedgerEntry} (hl : Quiet l) (h : Settled l ∨ failed) :
    Orderly failed (entry :: l) := by
  intro before broadcast after hsplit hbroadcast
  cases before with
  | nil =>
    obtain ⟨rfl, rfl⟩ := List.cons.inj hsplit
    exact h.imp_right (⟨·, hl⟩)
  | cons entry' before =>
    obtain ⟨-, rfl⟩ := List.cons.inj hsplit
    exact Quiet.orderly hl before broadcast after rfl hbroadcast

end Orderly

theorem Transacts.orderly {broadcast : Except Failure Text → LedgerEntry} {l : List LedgerEntry}
    {r : Except Failure Text} (h : Transacts broadcast l r) :
    Orderly (∃ e, r = .error e) l := by
  cases h with
  | settled hash => exact orderly_cons (quiet_settling _ _) (.inl ⟨[], rfl⟩)
  | unsent e => exact orderly_cons quiet_nil (.inr ⟨e, rfl⟩)
  | unawaited hash e => exact orderly_cons (quiet_awaited _) (.inr ⟨e, rfl⟩)
  | unchecked hash e => exact orderly_cons (quiet_settling _ _) (.inr ⟨e, rfl⟩)

section Addresses

variable {address : Json → Except Failure Text}

theorem Executes.orderly {target message : Json} {funds : List Coin} {l : List LedgerEntry}
    {r : Except Failure Text} (h : Executes address target message funds l r) :
    Orderly (∃ e, r = .error e) l := by
  cases h with
  | noAccount e h => exact Quiet.orderly quiet_nil
  | unopened account | unwritten account => exact Quiet.orderly (quiet_opened account _)
  | transacted account l _ h hl =>
    exact Orderly.append (Quiet.orderly (quiet_opened account _)) (Transacts.orderly hl)

theorem Pays.orderly {recipient : Json} {coin : Coin} {l : List LedgerEntry}
    {r : Except Failure Text} (h : Pays address recipient coin l r) :
    Orderly (∃ e, r = .error e) l := by
  cases h with
  | noAccount | noAmount => exact Quiet.orderly quiet_nil
  | transacted account amount _ _ h hamount hl => exact Transacts.orderly hl

theorem orderly_transfers (done : List Transfer) :
    Orderly False (done.flatMap Transfer.entries) := by
  induction done with
  | nil => exact Quiet.orderly quiet_nil
  | cons t done ih =>
    have ht : Orderly False t.entries := orderly_cons (quiet_settling _ _) (.inl ⟨[], rfl⟩)
    exact Orderly.append ht ih

theorem Sends.orderly {recipient : Json} {coins : List Coin} {l : List LedgerEntry}
    {r : Except Failure (Option Text)} (h : Sends address recipient coins l r) :
    Orderly (∃ e, r = .error e) l := by
  cases h with
  | all done h => exact Orderly.mono (orderly_transfers done) False.elim
  | upTo before coin after done l e split h hl =>
    refine Orderly.append (orderly_transfers done) (Orderly.mono (Pays.orderly hl) ?_)
    exact fun _ => ⟨e, rfl⟩

/-! ## Broadcasts of coins -/

/-- An entry is that of broadcasting a coin to a recipient. -/
def Broadcasts (address : Json → Except Failure Text) (recipient : Json) (coin : Coin)
    (entry : LedgerEntry) : Prop :=
  ∃ account amount ended, address recipient = .ok account ∧
    Text.toInt coin.amount = .ok amount ∧ entry = sent account amount coin.denom ended

/-- The broadcasts among entries. -/
def broadcasts (l : List LedgerEntry) : List LedgerEntry := l.filter (·.call.isBroadcast)

theorem Pays.broadcasts {recipient : Json} {coin : Coin} {l : List LedgerEntry}
    {r : Except Failure Text} (h : Pays address recipient coin l r) :
    broadcasts l = [] ∨
      ∃ entry, Broadcasts address recipient coin entry ∧ broadcasts l = [entry] := by
  cases h with
  | noAccount | noAmount => exact .inl rfl
  | transacted account amount _ _ h hamount hl =>
    refine .inr ?_
    cases hl <;> exact ⟨_, ⟨account, amount, _, h, hamount, rfl⟩, rfl⟩

/-- Exactly the coins up to some point were broadcast, all of them if nothing failed. -/
theorem Sends.broadcasts_prefix {recipient : Json} {coins : List Coin} {l : List LedgerEntry}
    {r : Except Failure (Option Text)} (h : Sends address recipient coins l r) :
    ∃ begun, begun <+: coins ∧ List.Forall₂ (Broadcasts address recipient) begun (broadcasts l) ∧
      ((∃ hash, r = .ok hash) → begun = coins) := by
  have hdone : ∀ {before done}, List.Forall₂ (Transfer.Moves address recipient) before done →
      List.Forall₂ (Broadcasts address recipient) before
        (broadcasts (done.flatMap Transfer.entries)) := by
    intro before done hmoves
    induction hmoves with
    | nil => exact .nil
    | cons hmove _ ih =>
      exact .cons ⟨_, _, _, hmove.account, hmove.amount, by rw [← hmove.denom]⟩ ih
  cases h with
  | all done h => exact ⟨coins, List.prefix_rfl, hdone h, fun _ => rfl⟩
  | upTo before coin after done l e split h hl =>
    have happend : broadcasts (done.flatMap Transfer.entries ++ l) =
        broadcasts (done.flatMap Transfer.entries) ++ broadcasts l := List.filter_append ..
    rw [happend, split]
    rcases Pays.broadcasts hl with hl | ⟨entry, hentry, hl⟩
    · rw [hl, List.append_nil]
      exact ⟨before, List.prefix_append _ _, hdone h, nofun⟩
    · rw [hl]
      refine ⟨before ++ [coin], ⟨after, (List.append_cons before coin after).symm⟩, ?_, nofun⟩
      exact List.rel_append (hdone h) (.cons hentry .nil)

/-! ## Operations -/

/-- What an operation asks of a ledger, by its call and its end. -/
inductive Performs (address : Json → Except Failure Text) : Asked → List LedgerEntry → Prop
  | execute (target message : Json) (funds : List Coin) (l : List LedgerEntry)
    (r : Except Failure Text) (h : Executes address target message funds l r) :
    Performs address
      ⟨.execute target message funds, r.mapError (refusal target (doing "execute" message))⟩ l
  | sendTokens (recipient : Json) (funds : List Coin) (l : List LedgerEntry)
    (r : Except Failure (Option Text)) (h : Sends address recipient funds l r) :
    Performs address ⟨.sendTokens recipient funds, r⟩ l
  | other (asked : Asked) (l : List LedgerEntry) (h : asked.call.transacts = false)
    (hl : Quiet l) : Performs address asked l

theorem Performs.orderly {asked : Asked} {l : List LedgerEntry} (h : Performs address asked l) :
    Orderly asked.Failed l := by
  cases h with
  | execute target message funds _ r h =>
    refine Orderly.mono (Executes.orderly h) ?_
    rintro ⟨e, rfl⟩
    exact ⟨_, rfl⟩
  | sendTokens recipient funds _ r h => exact Sends.orderly h
  | other _ _ h hl => exact Quiet.orderly hl

end Addresses

section Operations

variable {σ : Type} (node : Node σ)

theorem within_noted {call : LedgerCall} (h : call.isBroadcast = false) :
    Act.Within (Logged.Adds fun entry => ¬ entry.IsBroadcast) (node.noted call) :=
  Logged.within_adds_noting fun _ => (Bool.not_eq_true _).symm ▸ h

theorem within_refusing {α : Type} {P : LedgerEntry → Prop} {act : Act (Logged LedgerEntry σ) α}
    (target : Json) (about : Except Failure Text) (h : Act.Within (Logged.Adds P) act) :
    Act.Within (Logged.Adds P) (refusing target about act) := by
  refine h.attempt.bind fun ended => ?_
  cases ended with
  | ok a => exact Act.within_pure a
  | error e => exact (Act.within_ofExcept about).bind fun done => Act.within_throw _

/-- The operations that are not about a transaction to be waited for broadcast nothing. -/
theorem within_answer (d : ChainDefinition) (wallet : Text) {call : ChainCall}
    (h : call.transacts = false) :
    Act.Within (Logged.Adds fun entry => ¬ entry.IsBroadcast)
      ((client node.noted d wallet).answer call) := by
  cases call with
  | execute | sendTokens => cases h
  | upload wasm label =>
    exact within_refusing _ _ ((within_noted node rfl).bind fun _ => within_noted node rfl)
  | instantiate codeId body label =>
    exact within_refusing _ _ ((within_noted node rfl).bind fun _ => within_noted node rfl)
  | query target message =>
    refine within_refusing _ _ ((Act.within_ofExcept _).bind fun account => ?_)
    exact (within_noted node rfl).bind fun _ => within_noted node rfl
  | balance account denom =>
    refine (Act.within_ofExcept _).bind fun account => ?_
    refine (within_noted node rfl).bind fun amount => ?_
    exact (Act.within_ofExcept _).bind fun shown => Act.within_pure _

theorem leaves_answer (d : ChainDefinition) (wallet : Text) (call : ChainCall) :
    Logged.Leaves (fun l r => Performs node.address ⟨call, r⟩ l)
      ((client node.noted d wallet).answer call) := by
  cases call with
  | execute target message funds =>
    refine (leaves_execute node target message funds).mono ?_
    rintro l _ ⟨r, h, rfl⟩
    exact .execute target message funds l r h
  | sendTokens recipient funds =>
    refine (leaves_sendTokens node recipient funds none).mono ?_
    rintro l _ ⟨r, h, rfl⟩
    have hr : r.map (·.or none) = r := by
      cases r with
      | error e => rfl
      | ok hash => cases hash <;> rfl
    exact .sendTokens recipient funds l _ (hr.symm ▸ h)
  | upload | instantiate | query | balance =>
    exact Logged.Leaves.mono (Logged.leaves_of_adds (within_answer node d wallet rfl))
      fun l r hl => .other _ l rfl hl

end Operations

/-! ## Runs -/

/-- A call that was asked, with what it asked of the ledger. -/
structure Step where
  asked : Asked
  entries : List LedgerEntry

/-- Calls were made in steps, one transaction at a time. -/
structure Sequenced (address : Json → Except Failure Text) (calls : List ChainCall)
    (steps : List Step) : Prop where
  asked : steps.map (·.asked.call) = calls
  performs : ∀ step ∈ steps, Performs address step.asked step.entries
  ordered : ∀ before broadcast after,
    steps.flatMap Step.entries = before ++ broadcast :: after → broadcast.IsBroadcast →
      Settled after ∨ ∃ earlier step later made rest, steps = earlier ++ step :: later ∧
        step.entries = made ++ broadcast :: rest ∧ step.asked.Failed ∧ Quiet rest ∧
        after = rest ++ later.flatMap Step.entries
  begun : ∀ step ∈ steps, ∀ recipient funds, step.asked.call = .sendTokens recipient funds →
    ∃ begun, begun <+: funds ∧
      List.Forall₂ (Broadcasts address recipient) begun (broadcasts step.entries) ∧
      (¬ step.asked.Failed → begun = funds)

section Addresses

variable {address : Json → Except Failure Text}

theorem ordered_of_performs {steps : List Step}
    (h : ∀ step ∈ steps, Performs address step.asked step.entries)
    {before after : List LedgerEntry} {broadcast : LedgerEntry}
    (hsplit : steps.flatMap Step.entries = before ++ broadcast :: after)
    (hbroadcast : broadcast.IsBroadcast) :
    Settled after ∨ ∃ earlier step later made rest, steps = earlier ++ step :: later ∧
      step.entries = made ++ broadcast :: rest ∧ step.asked.Failed ∧ Quiet rest ∧
      after = rest ++ later.flatMap Step.entries := by
  induction steps generalizing before with
  | nil => exact absurd hsplit.symm (List.append_ne_nil_of_right_ne_nil _ (List.cons_ne_nil _ _))
  | cons step later ih =>
    obtain ⟨hstep, hlater⟩ := List.forall_mem_cons.1 h
    rcases List.split_append_cons hsplit with ⟨before', -, hafter⟩ | ⟨rest, hentries, rfl⟩
    · refine (ih hlater hafter).imp_right ?_
      rintro ⟨earlier, step', later', made, rest, rfl, hrest⟩
      exact ⟨step :: earlier, step', later', made, rest, rfl, hrest⟩
    · have horderly := Performs.orderly hstep before broadcast rest hentries hbroadcast
      rcases horderly with hsettled | ⟨hfailed, hrest⟩
      · exact .inl (Settled.append hsettled _)
      · exact .inr ⟨[], step, later, before, rest, rfl, hentries, hfailed, hrest, rfl⟩

theorem begun_of_performs {asked : Asked} {l : List LedgerEntry} (h : Performs address asked l)
    {recipient : Json} {funds : List Coin} (hcall : asked.call = .sendTokens recipient funds) :
    ∃ begun, begun <+: funds ∧ List.Forall₂ (Broadcasts address recipient) begun (broadcasts l) ∧
      (¬ asked.Failed → begun = funds) := by
  cases h with
  | execute => cases hcall
  | sendTokens recipient' funds' _ r h =>
    cases hcall
    obtain ⟨begun, hprefix, hbegun, hall⟩ := Sends.broadcasts_prefix h
    refine ⟨begun, hprefix, hbegun, fun hfailed => hall ?_⟩
    cases r with
    | ok hash => exact ⟨hash, rfl⟩
    | error e => exact absurd ⟨e, rfl⟩ hfailed
  | other _ _ h =>
    rw [hcall] at h
    cases h

theorem sequenced_of_performs {calls : List ChainCall} {steps : List Step}
    (hcalls : steps.map (·.asked.call) = calls)
    (h : ∀ step ∈ steps, Performs address step.asked step.entries) :
    Sequenced address calls steps where
  asked := hcalls
  performs := h
  ordered _ _ _ := ordered_of_performs h
  begun step hstep _ _ := begun_of_performs (h step hstep)

end Addresses

section Runs

variable {σ : Type} {node : Node σ}

theorem leaves_askAll (d : ChainDefinition) (wallet : Text) (calls : List ChainCall) :
    Logged.Leaves
      (fun l r => ∃ steps : List Step, (steps.map (·.asked.call) = calls ∧
          ∀ step ∈ steps, Performs node.address step.asked step.entries) ∧
        l = steps.flatMap Step.entries ∧ r = .ok (steps.map Step.asked))
      ((client node.noted d wallet).askAll calls) := by
  -- The induction is on the calls that remain.
  induction calls with
  | nil => exact Logged.leaves_pure ⟨[], ⟨rfl, nofun⟩, rfl, rfl⟩
  | cons call calls ih =>
    rw [ChainClient.askAll, List.mapM_cons]
    have hcall : Logged.Leaves
        (fun l r => ∃ asked : Asked,
          asked.call = call ∧ Performs node.address asked l ∧ r = .ok asked)
        (do return ⟨call, ← Act.attempt ((client node.noted d wallet).answer call)⟩) := by
      refine (leaves_answer node d wallet call).attempt.bind ?_ ?_
      · rintro l e ⟨r, -, hr⟩
        cases hr
      · rintro l ended ⟨_, hperforms, ⟨⟩⟩
        exact Logged.leaves_pure ⟨⟨call, ended⟩, rfl, by rwa [List.append_nil], rfl⟩
    refine hcall.bind (fun l e h => ?_) fun l asked h => ?_
    · obtain ⟨_, -, -, he⟩ := h
      cases he
    · obtain ⟨_, rfl, hperforms, ⟨⟩⟩ := h
      refine Logged.Leaves.bind ih ?_ ?_
      · rintro l' e ⟨steps, -, -, he⟩
        cases he
      · rintro l' _ ⟨steps, ⟨hcalls, hsteps⟩, rfl, ⟨⟩⟩
        refine Logged.leaves_pure ⟨⟨asked, l⟩ :: steps, ⟨?_, ?_⟩, ?_, rfl⟩
        · rw [List.map_cons, hcalls]
        · exact List.forall_mem_cons.2 ⟨hperforms, hsteps⟩
        · rw [List.append_nil, List.flatMap_cons]

theorem connect_eq_ok {d : ChainDefinition} {mnemonic : Text} {c : ChainClient σ} {s t : σ}
    (h : connect node d mnemonic s = .ok c t) : ∃ wallet, c = client node d wallet := by
  rw [connect] at h
  obtain ⟨gasPrice, _, -, h⟩ := Act.bind_eq_ok h
  obtain ⟨wallet, _, -, h⟩ := Act.bind_eq_ok h
  obtain ⟨_, _, -, h⟩ := Act.bind_eq_ok h
  cases h
  exact ⟨wallet, rfl⟩

/-- Whatever a connected client is asked, and whatever its ledger answers, its transactions go out
one at a time. -/
theorem sequenced_of_connect {d : ChainDefinition} {mnemonic : Text}
    {c : ChainClient (Logged LedgerEntry σ)} {s₀ s₁ : Logged LedgerEntry σ}
    (h : connect node.noted d mnemonic s₀ = .ok c s₁) (calls : List ChainCall)
    (s : Logged LedgerEntry σ) :
    ∃ steps t, Sequenced node.address calls steps ∧
      (c.askAll calls).outcome s =
        (.ok (steps.map Step.asked), ⟨s.log ++ steps.flatMap Step.entries, t⟩) := by
  obtain ⟨wallet, rfl⟩ := connect_eq_ok h
  obtain ⟨l, r, t, hrun, steps, ⟨hcalls, hsteps⟩, rfl, rfl⟩ := leaves_askAll d wallet calls s
  exact ⟨steps, t, sequenced_of_performs hcalls hsteps, hrun⟩

end Runs

/-- A ledger that keeps the amount sent last, and on which no more than a hundred can be sent at
once. -/
def sparing : Node Int where
  address := Bech32.read
  answer
    | .wallet .. => return text "osmo1qqqqqqqqqqqqqqqqqqqqqqqqqqqqqqqqmcn030"
    | .store _ => return (1 : Int)
    | .instantiate .. => return text "osmo1contract"
    | .execute .. => return text "A1B2"
    | .query _ => return Json.null
    | .balance .. => return Json.int 0
    | .sendTokens _ amount _ => do
      set amount
      return text "C3D4"
    | .check => do
      if 100 < (← get) then throw (.broken "out of gas")
    | .ledger .. | .contract .. | .await .. => return ()

/-- A local chain. -/
def localChain : ChainDefinition :=
  Settings.localChain (fun _ => none) "localhost" "osmo-a" "localosmosis-1" "OSMO_A" "20121" "20221"

theorem connect_sparing :
    ∃ c s, connect sparing.noted localChain Settings.faucetMnemonic ⟨[], 0⟩ = .ok c s := by
  have hread : localChain.gasPrice.isOk = true := by decide +kernel
  cases hprice : localChain.gasPrice with
  | error e =>
    rw [hprice] at hread
    cases hread
  | ok price =>
    rw [connect, hprice]
    exact ⟨_, _, rfl⟩

/-- Three coins to send, the second of which does not settle. -/
def threeCoins : ChainCall :=
  .sendTokens (.str "osmo1qqqqqqqqqqqqqqqqqqqqqqqqqqqqqqqqmcn030")
    [⟨"5", .str "uosmo"⟩, ⟨"500", .str "uosmo"⟩, ⟨"7", .str "uosmo"⟩]

theorem sequenced_of_connect_sparing :
    ∃ c s₁, connect sparing.noted localChain Settings.faucetMnemonic ⟨[], 0⟩ = .ok c s₁ ∧
      ∃ steps t, Sequenced sparing.address [threeCoins, threeCoins] steps ∧
        (c.askAll [threeCoins, threeCoins]).outcome s₁ =
          (.ok (steps.map Step.asked), ⟨s₁.log ++ steps.flatMap Step.entries, t⟩) := by
  obtain ⟨c, s₁, h⟩ := connect_sparing
  exact ⟨c, s₁, h, sequenced_of_connect h [threeCoins, threeCoins] s₁⟩

end Ledger

end CrossChain
