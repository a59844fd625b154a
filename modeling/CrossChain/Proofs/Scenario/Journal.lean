import CrossChain.Proofs.Bootstrap.Calls
import CrossChain.Proofs.Funds
import CrossChain.Proofs.Outcome.Exactness
import CrossChain.Proofs.Relay.Retries
import CrossChain.Scenario

/-!
# The journal of a campaign

A campaign is watched at its borders: every call to either chain and every sweep of the relayer is
noted with how it ended (`Campaign.noted`, `Relayer.noted`).  What the parts of a scenario add to
that journal is told here.  A relay adds sweeps that failed, and a last one that did not where it
succeeds (`relay_ok`); so what is checked after a relay is known wherever its first sweep succeeded
(`leaves_relayOne`).
-/

namespace CrossChain

/-! ## Entries -/

/-- What a campaign asks of its surroundings, and how that ended. -/
inductive JournalEntry
  /-- A call to the chain of a side. -/
  | asked (side : Side) (x : Asked)
  /-- A sweep over a link. -/
  | swept (link : Link) (ended : Except Failure RelayInfo)

namespace JournalEntry

/-- Whether an entry is a sweep. -/
def isSweep : JournalEntry → Bool
  | swept .. => true
  | asked .. => false

/-- A contract is sent the message that withdraws what may be recovered. -/
def Withdraws : JournalEntry → Prop
  | asked _ ⟨.execute _ message _, _⟩ => message = ContractMessage.recover.toJson
  | _ => False

/-- Neither a sweep nor a withdrawal. -/
def Plain (x : JournalEntry) : Prop := x.isSweep = false ∧ ¬ x.Withdraws

theorem plain_of_call {side : Side} {x : Asked}
    (h : ¬ (JournalEntry.asked side x).Withdraws) : Plain (asked side x) := ⟨rfl, h⟩

end JournalEntry

/-! ## Noted campaigns -/

section Noted

variable {σ : Type}

/-- A chain whose calls are noted under a side. -/
def Endpoint.noted (side : Side) (e : Endpoint σ) : Endpoint (Logged JournalEntry σ) where
  name := e.name
  definition := e.definition
  client :=
    { chainId := e.client.chainId
      sender := e.client.sender
      answer call := Logged.noting (fun ended => .asked side ⟨call, ended⟩) (e.client.answer call) }
  contracts := e.contracts
  ics20Channel := e.ics20Channel
  directChannel := e.directChannel
  ibcDenom := e.ibcDenom

/-- A campaign that notes the calls to both chains. -/
def Campaign.noted (c : Campaign σ) : Campaign (Logged JournalEntry σ) :=
  ⟨c.a.noted .a, c.b.noted .b, c.link, c.channel⟩

/-- A relayer that notes its sweeps. -/
def Relayer.noted (r : Relayer σ) : Relayer (Logged JournalEntry σ) where
  answer
    | .relayAll link => Logged.noting (.swept link) (r.relayAll link)
    | .createConnection a b => Logged.lift (r.createConnection a b)
    | .createChannel link side portA portB order version =>
      Logged.lift (r.createChannel link side portA portB order version)
    | .isReady => Logged.lift r.isReady

/-- An outside world beside a journal. -/
def Outside.noted (o : Outside σ) : Outside (Logged JournalEntry σ) where
  sleep delay := Logged.lift (o.sleep delay)
  randomBytes count := Logged.lift (o.randomBytes count)
  addressOf := o.addressOf
  fetch url timeout := Logged.lift (o.fetch url timeout)
  run line := Logged.lift (o.run line)
  connect d mnemonic := do
    let client ← Logged.lift (o.connect d mnemonic)
    return { chainId := client.chainId, sender := client.sender,
             answer := fun call => Logged.lift (client.answer call) }
  now := Logged.lift o.now

theorem endpoint_noted (c : Campaign σ) (side : Side) :
    c.noted.endpoint side = (c.endpoint side).noted side := by cases side <;> rfl

theorem notes_call (side : Side) (e : Endpoint σ) (call : ChainCall) :
    Logged.Notes (fun ended => JournalEntry.asked side ⟨call, ended⟩)
      ((e.noted side).client.answer call) :=
  Logged.notes_noting _ _

theorem within_call {Q : JournalEntry → Prop} (side : Side) (e : Endpoint σ) (call : ChainCall)
    (h : ∀ ended, Q (.asked side ⟨call, ended⟩)) :
    Act.Within (Logged.Adds Q) ((e.noted side).client.answer call) :=
  Logged.within_adds_noting fun _ => h _

end Noted

namespace Scenario

open JournalEntry (Plain)

variable {σ : Type} (r : Relayer σ) (o : Outside σ) (c : Campaign σ)

/-! ## Steps without withdrawals -/

section Steps

variable (side : Side) (e : Endpoint σ)

theorem within_freshAddress (addressPrefix : Text) :
    Act.Within (Logged.Adds Plain) (o.noted.freshAddress addressPrefix) := by
  exact (Logged.within_adds_lift _).bind fun bytes => Act.within_ofExcept _

/-- A message to send coins is not one to withdraw them. -/
theorem send_ne_recover (m : RoutedMessage) :
    (ContractMessage.send m).toJson ≠ ContractMessage.recover.toJson := by
  intro h
  have htag : text "send" = text "recover" := by
    injection h with hmembers
    exact congrArg Prod.fst (List.cons.inj hmembers).1
  exact absurd htag (by decide)

theorem within_send (recipient : Text) (funds : List GivenCoin) (body : Json)
    (recovery : Option RecoveryConfig) :
    Act.Within (Logged.Adds Plain) (send (e.noted side) recipient funds body recovery) := by
  refine (Act.within_ofExcept _).bind fun coins => (Act.within_ofExcept _).bind fun message =>
    (Act.within_ofExcept _).bind fun kernel => ?_
  have hplain : ∀ ended, Plain (.asked side ⟨.execute kernel.address
      (ContractMessage.send message).toJson coins, ended⟩) :=
    fun ended => JournalEntry.plain_of_call (send_ne_recover _)
  rw [Contract.execute_coins]
  refine (within_call side e _ hplain).bind fun hash => ?_
  by_cases hempty : hash.isEmpty = true
  · simp only [if_pos hempty]
    exact (Act.within_throw _).bind fun _ => Act.within_pure _
  · simp only [if_neg hempty]
    exact (Act.within_pure _).bind fun _ => Act.within_pure _

/-- Making a splitter is noted with the address that it got. -/
theorem leaves_makeSplitter (recipients : List SplitterRecipient) :
    Logged.Leaves (fun l r => (∀ x ∈ l, Plain x) ∧ ∀ made, r = .ok made →
        ∃ code body, JournalEntry.asked side
          ⟨.instantiate code body "splitter", .ok made.address⟩ ∈ l)
      (makeSplitter (e.noted side) recipients) := by
  have hcode : Act.Within (Logged.Adds Plain) ((e.noted side).codeId "splitter") :=
    (Act.within_ofExcept _).bind fun registry =>
      within_call side e _ fun _ => JournalEntry.plain_of_call id
  refine (Logged.leaves_of_adds hcode).bind (fun l e hl => ⟨hl, nofun⟩) fun l code hl => ?_
  refine Logged.leaves_ofExcept_bind (fun e => ?_) fun kernel _ => ?_
  · rw [List.append_nil]
    exact ⟨hl, nofun⟩
  · have hmade : ∀ ended, ∀ x ∈ l ++ [.asked side
        ⟨.instantiate code (Instantiation.splitter kernel.address recipients).toJson "splitter",
          ended⟩], Plain x := fun ended x hx =>
      (List.mem_append.1 hx).elim (hl x) fun hx =>
        List.mem_singleton.1 hx ▸ JournalEntry.plain_of_call id
    refine (notes_call side e (.instantiate code
      (Instantiation.splitter kernel.address recipients).toJson "splitter")).bind
      (fun e => ⟨hmade _, nofun⟩) fun address => Logged.leaves_pure ⟨hmade _, ?_⟩
    rintro made h
    cases h
    exact ⟨code, _, List.mem_append_right l (List.mem_singleton.2 rfl)⟩

end Steps

/-! ## Relays -/

section Relays

variable {r o c} {success : Bool} {side : Side}

/-- Only sweeps come of a relay, however it ends. -/
theorem within_relay :
    Act.Within (Logged.Adds fun x => ¬ x.Withdraws) (relay r.noted o.noted c.noted) := by
  apply Sweep.within_within
  · exact Logged.within_adds_lift _
  · exact Logged.within_adds_noting fun _ => id

theorem log_of_retries {pause : Act (Logged JournalEntry σ) Unit} {link : Link} {n : Nat}
    {s t : Logged JournalEntry σ} (hpause : Act.Within (fun x y => y.log = x.log) pause)
    (h : Sweep.Retries pause (r.noted.relayAll link) n s t) :
    ∃ failed : List Failure, failed.length = n ∧
      t.log = s.log ++ failed.map fun e => .swept link (.error e) := by
  induction h with
  | none s => exact ⟨[], rfl, (List.append_nil _).symm⟩
  | @again n s u v w message fails pauses rest ih =>
    obtain ⟨failed, hlength, hlog⟩ := ih
    have hswept : u.log = s.log ++ [.swept link (.error (.relay message))] := by
      rcases Logged.notes_noting (.swept link) (r.relayAll link) s with ⟨a, t, h⟩ | ⟨e, t, h⟩
      · cases h.symm.trans fails
      · cases h.symm.trans fails
        rfl
    refine ⟨.relay message :: failed, congrArg (· + 1) hlength, ?_⟩
    rw [hlog, hpause.ok pauses, hswept, List.append_assoc]
    rfl

/-- A relay that succeeds leaves the sweeps that failed and then the one that did not; it says
whether that one was the first. -/
theorem relay_ok {s t : Logged JournalEntry σ} {first : Bool} {info : RelayInfo}
    (h : relay r.noted o.noted c.noted s = .ok (first, info) t) :
    ∃ failed : List Failure,
      t.log = s.log ++ (failed.map (fun e => .swept c.link (.error e)) ++
        [.swept c.link (.ok info)]) ∧
      first = failed.isEmpty := by
  obtain ⟨n, u, hretries, hlast, hfirst⟩ := Sweep.within_ok _ h
  have hpause : Act.Within (fun x y => y.log = x.log) (o.noted.sleep Sweep.defaultDelay) :=
    Logged.within_lift (fun _ _ h => h) _
  obtain ⟨failed, hlength, hlog⟩ := log_of_retries hpause hretries
  have hswept : t.log = u.log ++ [.swept c.link (.ok info)] := by
    rcases Logged.notes_noting (.swept c.link) (r.relayAll c.link) u with ⟨a, v, h⟩ | ⟨e, v, h⟩
    · cases h.symm.trans hlast
      rfl
    · cases h.symm.trans hlast
  refine ⟨failed, ?_, ?_⟩
  · rw [hswept, hlog, List.append_assoc]
    rfl
  · rw [hfirst, ← hlength]
    cases failed <;> rfl

/-- There is a sweep, and if the first one succeeded it moved exactly one packet from a side, with
exactly one acknowledgement, of the given kind. -/
def ChecksFirst [Json.Limits] (success : Bool) (side : Side) (l : List JournalEntry) : Prop :=
  ∃ link ended, l.find? JournalEntry.isSweep = some (.swept link ended) ∧
    ∀ info, ended = .ok info →
      ∃ ack, info.sentFrom side = (1, [ack]) ∧ ack.body.Answers success

theorem ChecksFirst.append [Json.Limits] {l : List JournalEntry} (h : ChecksFirst success side l)
    (l' : List JournalEntry) : ChecksFirst success side (l ++ l') := by
  obtain ⟨link, ended, hfind, hmoved⟩ := h
  refine ⟨link, ended, ?_, hmoved⟩
  rw [List.find?_append, hfind]
  rfl

theorem ChecksFirst.prepend [Json.Limits] {l l' : List JournalEntry}
    (h : ChecksFirst success side l') (hl : ∀ x ∈ l, Plain x) :
    ChecksFirst success side (l ++ l') := by
  obtain ⟨link, ended, hfind, hmoved⟩ := h
  have hnone : l.find? JournalEntry.isSweep = none := by
    apply List.find?_eq_none.2
    intro x hx
    rw [(hl x hx).1]
    exact Bool.false_ne_true
  refine ⟨link, ended, ?_, hmoved⟩
  rw [List.find?_append, hnone, Option.none_or, hfind]

theorem one_of_check [Json.Limits] {info : RelayInfo} (h : info.check 1 success side = .ok ()) :
    ∃ ack, info.sentFrom side = (1, [ack]) ∧ ack.body.Answers success := by
  obtain ⟨⟨hpackets, hlength⟩, hanswers⟩ := RelayInfo.check_eq_ok.1 h
  obtain ⟨ack, hacks⟩ := List.length_eq_one_iff.1 (Int.ofNat.inj hlength)
  exact ⟨ack, Prod.ext hpackets hacks, hanswers ack (hacks ▸ List.mem_cons_self)⟩

/-- A relay whose outcome is checked leaves no withdrawals, and where it passes, a first sweep that
moved what it should. -/
theorem leaves_relayOne [Json.Limits] :
    Logged.Leaves
      (fun l ended => (∀ x ∈ l, ¬ x.Withdraws) ∧ (ended = .ok () → ChecksFirst success side l))
      (relayOne r.noted o.noted c.noted success side) := by
  have hrelay : Logged.Leaves (fun l ended => (∀ x ∈ l, ¬ JournalEntry.Withdraws x) ∧
      ∀ first info, ended = .ok (first, info) → ∃ failed : List Failure,
        l = failed.map (fun e => .swept c.link (.error e)) ++ [.swept c.link (.ok info)] ∧
          first = failed.isEmpty) (relay r.noted o.noted c.noted) := by
    intro s
    obtain ⟨l, ended, t, hrun, hl⟩ := Logged.leaves_of_adds within_relay s
    refine ⟨l, ended, t, hrun, hl, ?_⟩
    rintro first info rfl
    obtain ⟨failed, hlog, hfirst⟩ := relay_ok (Act.run_of_outcome_ok hrun)
    exact ⟨failed, List.append_cancel_left hlog, hfirst⟩
  refine hrelay.bind (fun l e hl => ⟨hl.1, nofun⟩) ?_
  rintro l ⟨first, info⟩ ⟨hl, hmoved⟩
  obtain ⟨failed, hlog, hfirst⟩ := hmoved first info rfl
  have hquiet : ∀ x ∈ l ++ [], ¬ JournalEntry.Withdraws x := by rwa [List.append_nil]
  refine Logged.leaves_ofExcept_bind (fun e => ⟨hquiet, nofun⟩) fun checked hcheck => ?_
  refine Logged.leaves_pure ⟨hquiet, fun _ => ?_⟩
  rw [List.append_nil, hlog]
  cases failed with
  | cons e failed => exact ⟨c.link, .error e, rfl, nofun⟩
  | nil =>
    refine ⟨c.link, .ok info, rfl, ?_⟩
    rintro info' h
    cases h
    -- Nothing failed before, so the check was made.
    rw [hfirst] at hcheck
    obtain ⟨_, hpassed, -⟩ := Act.except_bind_eq_ok hcheck
    exact one_of_check hpassed

end Relays

end Scenario

end CrossChain
