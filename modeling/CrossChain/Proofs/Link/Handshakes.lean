import CrossChain.Proofs.Link.Mirror
import CrossChain.Proofs.Link.Openings
import CrossChain.Proofs.Relay.Turns

/-!
# Counted handshakes

A handshake is tried until a try does not fail by the relayer, or until no try is left; between any
two tries there is one pause (`Handshake.Ends`).  A channel comes to a link by the last try and by
nothing else, and a connection that is negotiated has the names that were answered
(`handshakes_counted`).
-/

namespace CrossChain

namespace Handshake

/-! ## How tries end -/

section Ends

variable {α : Type}

/-- How tries of a handshake end, and what comes of them, if `left` may be made: `last` is the
message of a try before them, if there was one, and `gaveUp` the failure when none is left. -/
inductive Ends (gaveUp : Option Text → Failure) (left : Nat) (last : Option Text) :
    List (Except Failure α) → Except Failure α → Prop
  | untried (h : left = 0) : Ends gaveUp left last [] (.error (gaveUp last))
  | opened (failed : List RelayFault) (a : α) (h : failed.length < left) :
    Ends gaveUp left last (endsOf failed (.ok a)) (.ok a)
  | exhausted (failed : List RelayFault) (fault : RelayFault) (h : failed.length + 1 = left) :
    Ends gaveUp left last (endsOf failed (.error (.relay fault)))
      (.error (gaveUp (some fault.message)))
  | broken (failed : List RelayFault) (e : Failure) (he : ∀ fault, e ≠ .relay fault)
    (h : failed.length < left) : Ends gaveUp left last (endsOf failed (.error e)) (.error e)

variable {gaveUp : Option Text → Failure} {left : Nat} {ends : List (Except Failure α)}
  {result : Except Failure α}

theorem Ends.again {fault : RelayFault} (last : Option Text)
    (h : Ends gaveUp left (some fault.message) ends result) :
    Ends gaveUp (left + 1) last (.error (.relay fault) :: ends) result := by
  cases h with
  | untried h => exact .exhausted [] fault (congrArg (· + 1) h.symm)
  | opened failed a h => exact .opened (fault :: failed) a (Nat.succ_lt_succ h)
  | exhausted failed m h => exact .exhausted (fault :: failed) m (congrArg (· + 1) h)
  | broken failed e he h => exact .broken (fault :: failed) e he (Nat.succ_lt_succ h)

theorem Ends.ne_nil {last : Option Text} (h : Ends gaveUp (left + 1) last ends result) :
    ends ≠ [] := by
  cases h with
  | untried h => cases h
  | _ => exact List.append_ne_nil_of_right_ne_nil _ (List.cons_ne_nil _ _)

theorem Ends.length_le {last : Option Text} (h : Ends gaveUp left last ends result) :
    ends.length ≤ left := by
  cases h with
  | untried => exact Nat.zero_le left
  | _ =>
    rw [length_endsOf]
    omega

end Ends

/-! ## Tries, one at a time -/

section Tries

variable {σ α : Type} {pause : Act σ Unit} {act : Act σ α} {s t : σ}

theorem tryUpTo_of_ok (left : Nat) (last : Option Text) {a : α} (h : act s = .ok a t) :
    tryUpTo pause act (left + 1) last s = .ok (.ok a) t := by
  rw [tryUpTo, Act.bind_run_ok (Act.attempt_run_ok h)]
  rfl

theorem tryUpTo_of_relay_last (last : Option Text) {fault : RelayFault}
    (h : act s = .error (.relay fault) t) :
    tryUpTo pause act 1 last s = .ok (.error (some fault.message)) t := by
  rw [tryUpTo, Act.bind_run_ok (Act.attempt_run_error h)]
  rfl

theorem tryUpTo_of_relay (left : Nat) (last : Option Text) {fault : RelayFault}
    (h : act s = .error (.relay fault) t) :
    tryUpTo pause act (left + 2) last s =
      (pause >>= fun _ => tryUpTo pause act (left + 1) (some fault.message)) t := by
  rw [tryUpTo, Act.bind_run_ok (Act.attempt_run_error h)]
  rfl

theorem tryUpTo_of_other (left : Nat) (last : Option Text) {e : Failure}
    (h : act s = .error e t) (he : ∀ fault, e ≠ .relay fault) :
    tryUpTo pause act (left + 1) last s = .error e t := by
  rw [tryUpTo, Act.bind_run_ok (Act.attempt_run_error h)]
  cases e with
  | relay fault => exact absurd rfl (he fault)
  | _ => rfl

end Tries

/-! ## The turns of a handshake -/

section Turns

variable {σ : Type} (r : Relayer σ) (wait : Binary64 → σ → σ) (call : RelayerCall)
  (time : Binary64)

/-- What comes of the tries of a handshake. -/
def settled {α : Type} (gaveUp : Option Text → Failure) :
    Except Failure (Except (Option Text) α) → Except Failure α
  | .ok (.ok a) => .ok a
  | .ok (.error last) => .error (gaveUp last)
  | .error e => .error e

theorem outcome_tryUpTo (gaveUp : Option Text → Failure) (left : Nat) (last : Option Text)
    (s : Logged Turn σ) :
    ∃ ends result t, Ends gaveUp left last ends (settled gaveUp result) ∧
      (tryUpTo (Turn.pausing wait time) (r.watched.answer call) left last).outcome s =
        (result, ⟨s.log ++ turnsOf call time ends, t⟩) := by
  -- The induction is on how many tries are left.
  induction left generalizing last s with
  | zero =>
    refine ⟨[], .ok (.error last), s.inner, .untried rfl, Act.outcome_ok ?_⟩
    rw [log_turnsOf_nil]
    rfl
  | succ left ih =>
    rcases r.notes_watched call s with ⟨a, u, hrun⟩ | ⟨e, u, hrun⟩
    · exact ⟨_, .ok (.ok a), u, .opened [] a (Nat.succ_pos left),
        Act.outcome_ok (tryUpTo_of_ok left last hrun)⟩
    · by_cases he : ∃ fault, e = .relay fault
      · obtain ⟨fault, rfl⟩ := he
        cases left with
        | zero =>
          exact ⟨_, .ok (.error (some fault.message)), u, .exhausted [] fault rfl,
            Act.outcome_ok (tryUpTo_of_relay_last last hrun)⟩
        | succ left =>
          let paused : Logged Turn σ :=
            ⟨s.log ++ [.asked call (.error (.relay fault))] ++ [.paused time], wait time u⟩
          obtain ⟨ends, result, t, hends, hrest⟩ := ih (some fault.message) paused
          refine ⟨.error (.relay fault) :: ends, result, t, hends.again last, ?_⟩
          have hagain : tryUpTo (Turn.pausing wait time) (r.watched.answer call) (left + 2) last s =
              tryUpTo (Turn.pausing wait time) (r.watched.answer call) (left + 1)
                (some fault.message) paused := by
            rw [tryUpTo_of_relay left last hrun]
            exact Act.bind_run_ok rfl
          rw [Act.outcome_congr hagain, hrest, turnsOf_cons time _ hends.ne_nil]
          simp only [paused, List.append_assoc, List.cons_append, List.nil_append]
      · have hother : ∀ fault, e ≠ .relay fault := fun fault h => he ⟨fault, h⟩
        exact ⟨_, .error e, u, .broken [] e hother (Nat.succ_pos left),
          Act.outcome_error (tryUpTo_of_other left last hrun hother)⟩

theorem outcome_retried (h : Handshake) (attempts : Int) (s : Logged Turn σ) :
    ∃ ends result t, Ends (.handshake h attempts) attempts.toNat none ends result ∧
      (retried (Turn.pausing wait) h attempts time (r.watched.answer call)).outcome s =
        (result, ⟨s.log ++ turnsOf call time ends, t⟩) := by
  obtain ⟨ends, result, t, hends, hrun⟩ :=
    outcome_tryUpTo r wait call time (.handshake h attempts) attempts.toNat none s
  refine ⟨ends, _, t, hends, ?_⟩
  match result, hrun with
  | .ok (.ok a), hrun => exact Act.outcome_ok (Act.bind_run_ok (Act.run_of_outcome_ok hrun))
  | .ok (.error last), hrun =>
    exact Act.outcome_error (Act.bind_run_ok (Act.run_of_outcome_ok hrun))
  | .error e, hrun => exact Act.outcome_error (Act.bind_run_error (Act.run_of_outcome_error hrun))

end Turns

end Handshake

/-! ## Names -/

theorem Side.ofName_unknown {s : Text} (h : ∀ side : Side, side.name ≠ s) :
    Side.ofName s = .error (.value (.unknownSide s)) := by
  have hnone : ([a, b].find? fun side => side.name == s) = none :=
    List.find?_eq_none.2 fun side _ => by simpa using h side
  rw [ofName, hnone]

theorem Order.ofName_name (order : Order) : Order.ofName order.name = .ok order := by
  cases order <;> rfl

theorem Order.ofName_unknown {s : Text} (h : ∀ order : Order, order.name ≠ s) :
    Order.ofName s = .error (.value (.unknownOrder s)) := by
  have hnone : ([unordered, ordered].find? fun order => order.name == s) = none :=
    List.find?_eq_none.2 fun order _ => by simpa using h order
  rw [ofName, hnone]

/-! ## Channels -/

section Channels

variable {σ : Type} (r : Relayer σ) (sleep : Binary64 → Act σ Unit)

/-- A call to open a channel over a link. -/
def OpenCall.act (c : OpenCall) (link : Link) : Act σ (ChannelPair × Link) :=
  link.openChannelNamed r sleep c.side c.portA c.portB c.order c.version c.attempts c.backoff

/-- What a call to open a channel over a link in use gives. -/
def LinkInUse.opening (u : LinkInUse σ) (c : OpenCall) : Except Failure ChannelPair :=
  ((c.act r sleep u.link).outcome u.world).1.map Prod.fst

variable {r sleep} {u : LinkInUse σ} {c : OpenCall} {world : σ}

theorem LinkInUse.after_of_ok {pair : ChannelPair} {link : Link}
    (h : c.act r sleep u.link u.world = .ok (pair, link) world) :
    u.opening r sleep c = .ok pair ∧
      u.after r sleep (.openChannel c) = ⟨link, u.opened ++ [(c, pair)], world⟩ := by
  rw [opening, Act.outcome_ok h, after, ← OpenCall.act, h]
  exact ⟨rfl, rfl⟩

theorem LinkInUse.after_of_error {e : Failure}
    (h : c.act r sleep u.link u.world = .error e world) :
    u.opening r sleep c = .error e ∧ u.after r sleep (.openChannel c) = { u with world } := by
  rw [opening, Act.outcome_error h, after, ← OpenCall.act, h]
  exact ⟨rfl, rfl⟩

theorem OpenCall.act_of_no_attempts (link : Link) (s : σ) (h : c.attempts ≤ 0) :
    c.act r sleep link s =
      .error (.handshake (.channel c.portA c.portB) c.attempts none) s := by
  rw [act, Link.openChannelNamed, if_pos h]
  rfl

theorem OpenCall.act_of_attempts (link : Link) (h : 0 < c.attempts) :
    c.act r sleep link = (do
      let side ← Act.ofExcept (Side.ofName c.side)
      let order ← Act.ofExcept (Order.ofName c.order)
      link.openChannel r sleep side c.portA c.portB order c.version c.attempts c.backoff) := by
  rw [act, Link.openChannelNamed, if_neg (by omega)]

end Channels

section Counted

variable {σ : Type} (r : Relayer σ) (wait : Binary64 → σ → σ)

/-- A call with names that are known, however many tries it may make. -/
theorem OpenCall.outcome_act (c : OpenCall) {side : Side} {order : Order}
    (hside : c.side = side.name) (horder : c.order = order.name) (link : Link)
    (s : Logged Turn σ) :
    ∃ ends result t,
      Handshake.Ends (.handshake (.channel c.portA c.portB) c.attempts) c.attempts.toNat none ends
        result ∧
      (c.act r.watched (Turn.pausing wait) link).outcome s =
        (result.map fun pair => (pair, link.withChannel side pair),
          ⟨s.log ++ turnsOf (.createChannel link side c.portA c.portB order c.version) c.backoff
            ends, t⟩) := by
  by_cases hattempts : c.attempts ≤ 0
  · refine ⟨[], .error _, s.inner, .untried (Int.toNat_of_nonpos hattempts), ?_⟩
    exact (Act.outcome_error (OpenCall.act_of_no_attempts link s hattempts)).trans
      (congrArg (Prod.mk _) (log_turnsOf_nil _ _ s).symm)
  · obtain ⟨ends, result, t, hends, hrun⟩ := Handshake.outcome_retried r wait
      (.createChannel link side c.portA c.portB order c.version) c.backoff
      (.channel c.portA c.portB) c.attempts s
    refine ⟨ends, result, t, hends, ?_⟩
    have hopen : c.act r.watched (Turn.pausing wait) link = link.openChannel r.watched
        (Turn.pausing wait) side c.portA c.portB order c.version c.attempts c.backoff := by
      rw [OpenCall.act_of_attempts link (by omega), hside, horder, Side.ofName_name,
        Order.ofName_name]
      rfl
    rw [hopen]
    cases result with
    | ok pair => exact Act.outcome_ok (Act.bind_run_ok (Act.run_of_outcome_ok hrun))
    | error e => exact Act.outcome_error (Act.bind_run_error (Act.run_of_outcome_error hrun))

theorem LinkInUse.after_known (u : LinkInUse (Logged Turn σ)) (c : OpenCall) {side : Side}
    {order : Order} (hside : c.side = side.name) (horder : c.order = order.name) :
    ∃ ends result t,
      Handshake.Ends (.handshake (.channel c.portA c.portB) c.attempts) c.attempts.toNat none ends
        result ∧
      ends.length ≤ c.attempts.toNat ∧
      u.opening r.watched (Turn.pausing wait) c = result ∧
      (u.after r.watched (Turn.pausing wait) (.openChannel c)).world =
        ⟨u.world.log ++ turnsOf (.createChannel u.link side c.portA c.portB order c.version)
          c.backoff ends, t⟩ ∧
      (∀ pair, result = .ok pair → ∃ entry : ChannelPair,
        (u.after r.watched (Turn.pausing wait) (.openChannel c)).link =
          { u.link with channels := u.link.channels ++ [entry] } ∧
        entry.endOn side = pair.src ∧ entry.endOn side.other = pair.dest) ∧
      ∀ e, result = .error e →
        (u.after r.watched (Turn.pausing wait) (.openChannel c)).link = u.link := by
  obtain ⟨ends, result, t, hends, hrun⟩ := c.outcome_act r wait hside horder u.link u.world
  refine ⟨ends, result, t, hends, hends.length_le, ?_⟩
  cases result with
  | ok pair =>
    obtain ⟨hopening, hafter⟩ := LinkInUse.after_of_ok (Act.run_of_outcome_ok hrun)
    rw [hafter]
    refine ⟨hopening, rfl, ?_, nofun⟩
    rintro _ ⟨⟩
    exact ⟨side.pick pair pair.swap, rfl, by cases side <;> rfl, by cases side <;> rfl⟩
  | error e =>
    obtain ⟨hopening, hafter⟩ := LinkInUse.after_of_error (Act.run_of_outcome_error hrun)
    rw [hafter]
    exact ⟨hopening, rfl, nofun, fun _ _ => rfl⟩

theorem LinkInUse.after_unknown_side (u : LinkInUse σ) {c : OpenCall}
    {sleep : Binary64 → Act σ Unit} (hattempts : 0 < c.attempts)
    (hside : ∀ side : Side, side.name ≠ c.side) :
    u.opening r sleep c = .error (.value (.unknownSide c.side)) ∧
      u.after r sleep (.openChannel c) = u := by
  apply LinkInUse.after_of_error
  rw [OpenCall.act_of_attempts u.link hattempts, Side.ofName_unknown hside]
  rfl

theorem LinkInUse.after_unknown_order (u : LinkInUse σ) {c : OpenCall}
    {sleep : Binary64 → Act σ Unit} (hattempts : 0 < c.attempts) {side : Side}
    (hside : c.side = side.name) (horder : ∀ order : Order, order.name ≠ c.order) :
    u.opening r sleep c = .error (.value (.unknownOrder c.order)) ∧
      u.after r sleep (.openChannel c) = u := by
  apply LinkInUse.after_of_error
  rw [OpenCall.act_of_attempts u.link hattempts, hside, Side.ofName_name,
    Order.ofName_unknown horder]
  rfl

/-! ## Connections -/

theorem Link.establish_of_names (a b : ChainDefinition) {x y : Text} (attempts : Int)
    (backoff : Binary64) {sleep : Binary64 → Act σ Unit} (hx : x ≠ []) (hy : y ≠ []) :
    establish r sleep a b (some x) (some y) attempts backoff =
      pure { chainA := a, chainB := b, connectionA := .str x, connectionB := .str y } := by
  cases x with
  | nil => exact absurd rfl hx
  | cons c x =>
    cases y with
    | nil => exact absurd rfl hy
    | cons d y => rfl

theorem Link.establish_of_missing (a b : ChainDefinition) {x y : Option Text} (attempts : Int)
    (backoff : Binary64) {sleep : Binary64 → Act σ Unit} (h : x.getD [] = [] ∨ y.getD [] = []) :
    establish r sleep a b x y attempts backoff = (do
      let names ← Handshake.retried sleep (.connection a.name b.name) attempts backoff
        (r.createConnection a b)
      return { chainA := a, chainB := b, connectionA := names.1, connectionB := names.2 }) := by
  match x, y, h with
  | none, _, _ => rfl
  | some [], _, _ => rfl
  | some (_ :: _), none, _ => rfl
  | some (_ :: _), some [], _ => rfl
  | some (_ :: _), some (_ :: _), h => exact absurd h (by simp)

theorem Link.outcome_establish (a b : ChainDefinition) {x y : Option Text} (attempts : Int)
    (backoff : Binary64) (s : Logged Turn σ) (h : x.getD [] = [] ∨ y.getD [] = []) :
    ∃ ends result t,
      Handshake.Ends (.handshake (.connection a.name b.name) attempts) attempts.toNat none ends
        result ∧
      ends.length ≤ attempts.toNat ∧
      (establish r.watched (Turn.pausing wait) a b x y attempts backoff).outcome s =
        (result.map fun names =>
          { chainA := a, chainB := b, connectionA := names.1, connectionB := names.2 },
          ⟨s.log ++ turnsOf (.createConnection a b) backoff ends, t⟩) := by
  obtain ⟨ends, result, t, hends, hrun⟩ := Handshake.outcome_retried r wait
    (.createConnection a b) backoff (.connection a.name b.name) attempts s
  refine ⟨ends, result, t, hends, hends.length_le, ?_⟩
  rw [Link.establish_of_missing r.watched a b attempts backoff h]
  cases result with
  | ok names => exact Act.outcome_ok (Act.bind_run_ok (Act.run_of_outcome_ok hrun))
  | error e => exact Act.outcome_error (Act.bind_run_error (Act.run_of_outcome_error hrun))

/-! ## The law -/

/-- Handshakes are counted, and change a link when they succeed only.  A call to open a channel asks
the relayer the same until a try does not fail by the relayer, as often as it may at most and with a
pause between any two tries; if it succeeds the link has one more channel, with the end of the side
that it was opened from on that side, and otherwise the link is as before.  Without a try nothing is
read, and unknown names end a call before its first try.  A link is established over given names
without a try, or else by tries that are counted alike, and then it has the names that the last of
them answered. -/
theorem handshakes_counted :
    (∀ (u : LinkInUse (Logged Turn σ)) (c : OpenCall) (side : Side) (order : Order),
      c.side = side.name → c.order = order.name →
      ∃ ends result t,
        Handshake.Ends (.handshake (.channel c.portA c.portB) c.attempts) c.attempts.toNat none
          ends result ∧
        ends.length ≤ c.attempts.toNat ∧
        u.opening r.watched (Turn.pausing wait) c = result ∧
        (u.after r.watched (Turn.pausing wait) (.openChannel c)).world =
          ⟨u.world.log ++ turnsOf (.createChannel u.link side c.portA c.portB order c.version)
            c.backoff ends, t⟩ ∧
        (∀ pair, result = .ok pair → ∃ entry : ChannelPair,
          (u.after r.watched (Turn.pausing wait) (.openChannel c)).link =
            { u.link with channels := u.link.channels ++ [entry] } ∧
          entry.endOn side = pair.src ∧ entry.endOn side.other = pair.dest) ∧
        ∀ e, result = .error e →
          (u.after r.watched (Turn.pausing wait) (.openChannel c)).link = u.link) ∧
    (∀ (u : LinkInUse (Logged Turn σ)) (c : OpenCall),
      (c.attempts ≤ 0 →
        u.opening r.watched (Turn.pausing wait) c =
          .error (.handshake (.channel c.portA c.portB) c.attempts none) ∧
        u.after r.watched (Turn.pausing wait) (.openChannel c) = u) ∧
      (0 < c.attempts → (∀ side : Side, side.name ≠ c.side) →
        u.opening r.watched (Turn.pausing wait) c = .error (.value (.unknownSide c.side)) ∧
        u.after r.watched (Turn.pausing wait) (.openChannel c) = u) ∧
      (0 < c.attempts → (∃ side : Side, c.side = side.name) →
        (∀ order : Order, order.name ≠ c.order) →
        u.opening r.watched (Turn.pausing wait) c = .error (.value (.unknownOrder c.order)) ∧
        u.after r.watched (Turn.pausing wait) (.openChannel c) = u)) ∧
    (∀ (a b : ChainDefinition) (x y : Text) (attempts : Int) (backoff : Binary64)
      (s : Logged Turn σ), x ≠ [] → y ≠ [] →
      (Link.establish r.watched (Turn.pausing wait) a b (some x) (some y) attempts backoff).outcome
        s = (.ok { chainA := a, chainB := b, connectionA := .str x, connectionB := .str y }, s)) ∧
    ∀ (a b : ChainDefinition) (x y : Option Text) (attempts : Int) (backoff : Binary64)
      (s : Logged Turn σ), x.getD [] = [] ∨ y.getD [] = [] →
      ∃ ends result t,
        Handshake.Ends (.handshake (.connection a.name b.name) attempts) attempts.toNat none ends
          result ∧
        ends.length ≤ attempts.toNat ∧
        (Link.establish r.watched (Turn.pausing wait) a b x y attempts backoff).outcome s =
          (result.map fun names =>
            { chainA := a, chainB := b, connectionA := names.1, connectionB := names.2 },
            ⟨s.log ++ turnsOf (.createConnection a b) backoff ends, t⟩) := by
  refine ⟨fun u c side order hside horder => u.after_known r wait c hside horder,
    fun u c => ⟨fun hattempts => ?_, u.after_unknown_side r.watched, ?_⟩,
    fun a b x y attempts backoff s hx hy => ?_,
    fun a b x y attempts backoff s h => Link.outcome_establish r wait a b attempts backoff s h⟩
  · exact LinkInUse.after_of_error (OpenCall.act_of_no_attempts u.link u.world hattempts)
  · rintro hattempts ⟨side, hside⟩ horder
    exact u.after_unknown_order r.watched hattempts hside horder
  · rw [Link.establish_of_names r.watched a b attempts backoff hx hy]
    rfl

end Counted

end CrossChain
