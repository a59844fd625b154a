import CrossChain.Proofs.Bootstrap.Resumption
import CrossChain.Proofs.Bootstrap.Verification
import CrossChain.Proofs.Outcome.Acknowledgement
import CrossChain.Proofs.Scenario.Journal
import CrossChain.Proofs.Scenario.Vouchers

/-!
# Installs on two chains

An install on both chains fails once both bootstraps have ended, with the failure of chain A if it
has one and else with that of chain B, and leaves the campaign as it was
(`Attempted.installSystem_error`).  What one chain achieved is not lost: another attempt deploys
nothing there and, if it succeeds, works with the addresses of the first (`installSystem_resumes`).
-/

namespace CrossChain

/-! ## Acts at the site -/

namespace Run

variable {σ α : Type} {x : Act (Site σ) α} {s : Run σ} {site : Site σ}

theorem onSite_run_ok {a : α} (h : x s.site = .ok a site) :
    onSite x s = .ok a { s with site } := by rw [onSite, Act.on, h]

theorem onSite_run_error {e : Failure} (h : x s.site = .error e site) :
    onSite x s = .error e { s with site } := by rw [onSite, Act.on, h]

end Run

/-! ## Deployments in a journal -/

namespace JournalEntry

/-- A call to the chain of a side that stores code, makes a contract or sends one a message. -/
def Deploys (side : Side) : JournalEntry → Prop
  | asked target ⟨.upload .., _⟩ => target = side
  | asked target ⟨.instantiate .., _⟩ => target = side
  | asked target ⟨.execute .., _⟩ => target = side
  | _ => False

theorem not_deploys_of_ne {target side : Side} (h : target ≠ side) (x : Asked) :
    ¬ (asked target x).Deploys side := by
  obtain ⟨call, ended⟩ := x
  cases call with
  | upload | instantiate | execute => exact h
  | query | balance | sendTokens => exact id

end JournalEntry

namespace Scenario

open Bootstrap (Lasting Remembers OutsideMoves)

section Attempts

variable [Json.Limits] {σ : Type} (c : Campaign σ) (contracts : Table Path)
  (directory : Option Path)

/-- The bootstrap of the chain of a side. -/
def setUpAt (side : Side) : Act (Site σ) (Table Json) :=
  Bootstrap.setUp (c.endpoint side).client (c.endpoint side).name contracts directory

/-- How the bootstraps of both chains end, and the site after both. -/
def Attempted (s : Site σ) (ended : Side → Except Failure (Table Json)) (t : Site σ) : Prop :=
  ∃ u, (setUpAt c contracts directory .a).outcome s = (ended .a, u) ∧
    (setUpAt c contracts directory .b).outcome u = (ended .b, t)

/-- The addresses of both chains, or the failure of chain A and, without one, that of chain B. -/
def bothEnds (ended : Side → Except Failure (Table Json)) :
    Except Failure (Table Json × Table Json) := do
  return (← ended .a, ← ended .b)

/-- The campaign with contracts at further addresses on both chains. -/
def withContracts (addresses : Side → Table Json) : Campaign σ :=
  { c with a := c.a.withAddresses (addresses .a), b := c.b.withAddresses (addresses .b) }

theorem exists_attempted (s : Site σ) : ∃ ended t, Attempted c contracts directory s ended t :=
  let atA := (setUpAt c contracts directory .a).outcome s
  let atB := (setUpAt c contracts directory .b).outcome atA.2
  ⟨fun side => side.pick atA.1 atB.1, atB.2, atA.2, rfl, rfl⟩

variable {c contracts directory} {s t : Site σ} {ended : Side → Except Failure (Table Json)}

theorem Attempted.unique (h : Attempted c contracts directory s ended t)
    {ended' : Side → Except Failure (Table Json)} {t' : Site σ}
    (h' : Attempted c contracts directory s ended' t') : ended = ended' ∧ t = t' := by
  obtain ⟨u, hA, hB⟩ := h
  obtain ⟨u', hA', hB'⟩ := h'
  obtain ⟨hendedA, rfl⟩ := Prod.mk.inj (hA.symm.trans hA')
  obtain ⟨hendedB, rfl⟩ := Prod.mk.inj (hB.symm.trans hB')
  refine ⟨funext fun side => ?_, rfl⟩
  cases side with
  | a => exact hendedA
  | b => exact hendedB

theorem Attempted.outcome_awaitBoth (h : Attempted c contracts directory s ended t) :
    Act.outcome (Act.awaitBoth (setUpAt c contracts directory .a)
      (setUpAt c contracts directory .b)) s = (bothEnds ended, t) := by
  obtain ⟨u, hA, hB⟩ := h
  exact Act.outcome_awaitBoth hA hB

/-- The failure of chain A, or else that of chain B, is the failure of the install, which changes
the site in both bootstraps and the campaign not at all. -/
theorem Attempted.installSystem_error (h : Attempted c contracts directory s ended t) {e : Failure}
    (he : bothEnds ended = .error e) :
    installSystem contracts directory ⟨c, s⟩ = .error e ⟨c, t⟩ := by
  have hboth := h.outcome_awaitBoth
  rw [he] at hboth
  rw [installSystem, Act.get_bind]
  exact Act.bind_run_error (Run.onSite_run_error (Act.run_of_outcome_error hboth))

/-- Once both bootstraps succeeded, the addresses are entered and the chains are checked. -/
theorem Attempted.installSystem_ok (h : Attempted c contracts directory s ended t)
    {addresses : Side → Table Json} (hok : ∀ side, ended side = .ok (addresses side)) :
    installSystem contracts directory ⟨c, s⟩ =
      Run.onSite (Site.onOutside (Endpoint.checkConsistency (withContracts c addresses).a
        (withContracts c addresses).b)) ⟨withContracts c addresses, t⟩ := by
  have hboth := h.outcome_awaitBoth
  rw [bothEnds, hok .a, hok .b] at hboth
  rw [installSystem, Act.get_bind]
  exact Act.bind_run_ok (a := (addresses .a, addresses .b))
    (Run.onSite_run_ok (Act.run_of_outcome_ok hboth))

omit [Json.Limits] in
theorem failed_or_succeeded (ended : Side → Except Failure (Table Json)) :
    (∃ e, bothEnds ended = .error e) ∨
      ∃ addresses : Side → Table Json, ∀ side, ended side = .ok (addresses side) := by
  rw [bothEnds]
  cases hA : ended .a with
  | error e => exact .inl ⟨e, rfl⟩
  | ok atA =>
    cases hB : ended .b with
    | error e => exact .inl ⟨e, rfl⟩
    | ok atB =>
      refine .inr ⟨fun side => side.pick atA atB, fun side => ?_⟩
      cases side with
      | a => exact hA
      | b => exact hB

theorem Attempted.hasKernel {side : Side} {addresses : Table Json}
    (h : Attempted c contracts directory s ended t) (hok : ended side = .ok addresses) :
    kernelName ∈ Table.names contracts := by
  obtain ⟨u, hA, hB⟩ := h
  cases side with
  | a => exact Bootstrap.kernel_of_setUp (Act.run_of_outcome_ok (hok ▸ hA))
  | b => exact Bootstrap.kernel_of_setUp (Act.run_of_outcome_ok (hok ▸ hB))

/-- After both bootstraps a chain is remembered whose own succeeded. -/
theorem Attempted.remembers {set : ContractSet} {d : Path} {addresses : Table Json}
    (h : Attempted c set.files (some d) s ended t)
    (hids : ∀ side, 47 ∉ (c.endpoint side).client.chainId) (side : Side)
    (hok : ended side = .ok addresses) (hlasting : Lasting addresses) :
    (Table.names addresses).Perm set.names ∧
      ∃ cache, Remembers t.files d (c.endpoint side).client.chainId set.names cache ∧
        ∀ name ∈ set.names, Table.get? name cache.contracts = Table.get? name addresses := by
  obtain ⟨u, hA, hB⟩ := h
  cases side with
  | b =>
    rw [hok] at hB
    exact Bootstrap.remembers_of_setUp (hids .b) hlasting (Act.run_of_outcome_ok hB)
  | a =>
    rw [hok] at hA
    obtain ⟨hnames, cache, hremembers, hsame⟩ :=
      Bootstrap.remembers_of_setUp (hids .a) hlasting (Act.run_of_outcome_ok hA)
    -- The bootstrap of the other chain comes after that.
    have hkept : Remembers (Act.final (setUpAt c set.files (some d) .b) u).files d
        (c.endpoint .a).client.chainId set.names cache := hremembers.setUp (hids .a) (hids .b)
    rw [Act.final, hB] at hkept
    exact ⟨hnames, cache, hkept, hsame⟩

end Attempts

/-! ## The later attempt -/

section Again

variable {σ : Type} {c : Campaign σ} {set : ContractSet} {d : Path} {side : Side} {cache : Cache}
  {s : Site (Logged JournalEntry σ)}

/-- A bootstrap of one chain deploys nothing on the other. -/
theorem within_setUpAt_other [Json.Limits] {target : Side} (h : target ≠ side) :
    Act.Within (OutsideMoves (Logged.Adds fun x => ¬ x.Deploys side))
      (setUpAt c.noted set.files (some d) target) := by
  have hcall : ∀ call, Act.Within (Logged.Adds fun x => ¬ JournalEntry.Deploys side x)
      (((c.endpoint target).noted target).client.answer call) := fun call =>
    within_call target _ call fun ended => JournalEntry.not_deploys_of_ne h _
  rw [setUpAt, endpoint_noted]
  exact Bootstrap.outsideMoves_setUp (Bootstrap.within_install_of_calls
    (fun file label => hcall (.upload file label))
    (fun code body label => hcall (.instantiate code body label))
    (fun kernel address name => hcall _) _ _)

theorem setUpAt_of_remembers [Json.Limits]
    (h : Remembers s.files d (c.endpoint side).client.chainId set.names cache) :
    (setUpAt c.noted set.files (some d) side).outcome s =
      (.ok (Table.restrict set.names cache.contracts), s) := by
  have hrun : setUpAt c.noted set.files (some d) side s =
      .ok (Table.restrict set.names cache.contracts) s := by
    rw [setUpAt, endpoint_noted]
    exact h.setUp_run
  rw [Act.outcome, hrun]

/-- Both bootstraps where one of the chains is remembered. -/
theorem exists_attempted_of_remembers [Json.Limits]
    (hids : ∀ side, 47 ∉ (c.endpoint side).client.chainId)
    (h : Remembers s.files d (c.endpoint side).client.chainId set.names cache) :
    ∃ ended t, Attempted c.noted set.files (some d) s ended t ∧
      ended side = .ok (Table.restrict set.names cache.contracts) ∧
      Logged.Adds (fun x => ¬ JournalEntry.Deploys side x) s.outside t.outside := by
  obtain ⟨ended, t, u, hA, hB⟩ := exists_attempted c.noted set.files (some d) s
  refine ⟨ended, t, ⟨u, hA, hB⟩, ?_⟩
  cases side with
  | a =>
    obtain ⟨hended, rfl⟩ := Prod.mk.inj ((setUpAt_of_remembers h).symm.trans hA)
    have hmoves : OutsideMoves (Logged.Adds fun x => ¬ JournalEntry.Deploys .a x) s
        (Act.final (setUpAt c.noted set.files (some d) .b) s) :=
      within_setUpAt_other (by decide) s
    rw [Act.final, hB] at hmoves
    exact ⟨hended.symm, hmoves⟩
  | b =>
    have hmoves : OutsideMoves (Logged.Adds fun x => ¬ JournalEntry.Deploys .b x) s
        (Act.final (setUpAt c.noted set.files (some d) .a) s) :=
      within_setUpAt_other (by decide) s
    have hkept : Remembers (Act.final (setUpAt c.noted set.files (some d) .a) s).files d
        (c.endpoint .b).client.chainId set.names cache := h.setUp (hids .b) (hids .a)
    rw [Act.final, hA] at hmoves hkept
    obtain ⟨hended, rfl⟩ := Prod.mk.inj ((setUpAt_of_remembers hkept).symm.trans hB)
    exact ⟨hended.symm, hmoves⟩

theorem endpoint_withContracts (c : Campaign σ) (addresses : Side → Table Json) (side : Side) :
    (withContracts c addresses).endpoint side =
      (c.endpoint side).withAddresses (addresses side) := by cases side <;> rfl

/-- The checks of the chains only ask. -/
theorem within_checks (c : Campaign σ) (side : Side) (addresses : Side → Table Json) :
    Act.Within (OutsideMoves (Logged.Adds fun x => ¬ JournalEntry.Deploys side x))
      (Site.onOutside (Endpoint.checkConsistency (withContracts c.noted addresses).a
        (withContracts c.noted addresses).b)) := by
  refine Bootstrap.outsideMoves_onOutside (within_checkConsistency ?_ ?_)
  · exact fun address message => within_call .a c.a (.query address message) fun _ => id
  · exact fun address message => within_call .b c.b (.query address message) fun _ => id

/-- Another attempt where one of the chains is remembered: it deploys nothing on that chain, and if
it succeeds, the chain has the addresses that are remembered. -/
theorem installSystem_of_remembers [Json.Limits]
    (hids : ∀ side, 47 ∉ (c.endpoint side).client.chainId)
    (h : Remembers s.files d (c.endpoint side).client.chainId set.names cache) :
    Logged.Adds (fun x => ¬ JournalEntry.Deploys side x) s.outside
        (Act.final (installSystem set.files (some d)) ⟨c.noted, s⟩).site.outside ∧
      ∀ run, installSystem set.files (some d) ⟨c.noted, s⟩ = .ok () run →
        run.campaign.endpoint side =
          (c.noted.endpoint side).withAddresses (Table.restrict set.names cache.contracts) := by
  obtain ⟨ended, t, hattempted, hended, hadds⟩ := exists_attempted_of_remembers hids h
  rcases failed_or_succeeded ended with ⟨e, he⟩ | ⟨addresses, hok⟩
  · have hrun := hattempted.installSystem_error he
    rw [Act.final_error hrun, hrun]
    refine ⟨hadds, fun run hsucceeded => ?_⟩
    cases hsucceeded
  · have haddresses : addresses side = Table.restrict set.names cache.contracts :=
      Except.ok.inj ((hok side).symm.trans hended)
    have hrun := hattempted.installSystem_ok hok
    have hchecks := within_checks c side addresses t
    rw [← haddresses]
    refine ⟨?_, fun run hsucceeded => ?_⟩
    · rw [Act.final, Act.outcome, hrun, ← Act.outcome, ← Act.final, Run.onSite, Act.final_on]
      exact IsTrans.trans _ _ _ hadds hchecks
    · rw [hrun] at hsucceeded
      rw [← Act.final_ok hsucceeded, Run.onSite, Act.final_on]
      exact endpoint_withContracts c.noted addresses side

end Again

section Resumption

variable {σ : Type} {set : ContractSet} {addresses : Table Json} {cache : Cache}

theorem get?_withAddresses_restrict (hnames : (Table.names addresses).Perm set.names)
    (hsame : ∀ name ∈ set.names, Table.get? name cache.contracts = Table.get? name addresses)
    (e : Endpoint σ) {p : Text × Json} (hp : p ∈ addresses) :
    Table.get? p.1 (e.withAddresses (Table.restrict set.names cache.contracts)).contracts =
      some ⟨p.2⟩ := by
  have hnodup : (Table.names addresses).Nodup := hnames.nodup_iff.2 set.nodup
  have hkeys : ∀ name ∈ set.names, name ∈ Table.names cache.contracts := by
    intro name hname
    rw [← Table.isSome_get?, hsame name hname, Table.isSome_get?]
    exact hnames.mem_iff.2 hname
  have hname : p.1 ∈ set.names := hnames.mem_iff.1 (List.mem_map_of_mem hp)
  have hmem : p ∈ Table.restrict set.names cache.contracts := by
    apply Table.mem_of_get?
    rw [Table.get?_restrict hname (hkeys p.1 hname), hsame p.1 hname]
    exact Table.get?_of_mem hnodup hp
  have hrestricted : (Table.names ((Table.restrict set.names cache.contracts).map
      fun p => (p.1, Contract.mk p.2))).Nodup := by
    rw [Table.names_mapValues, Table.names_restrict hkeys]
    exact set.nodup
  exact Table.get?_insertAll_of_mem hrestricted (p := (p.1, ⟨p.2⟩))
    (List.mem_map.2 ⟨p, hmem, rfl⟩)

/-- Whatever the chains answer, and whatever contracts are installed: if a bootstrap fails, the
install fails once both have ended, with the failure of chain A if it has one and else with that of
chain B, and the campaign is as before.  A chain whose bootstrap succeeded and was kept is done
with: in another attempt, over those files and with clients of the same chains, no code is stored
there, no contract made and none sent a message, and if the attempt succeeds, the chain has the
addresses that the first one gave. -/
theorem installSystem_resumes [Json.Limits] (c : Campaign σ) (contracts : Table Path)
    (hcontracts : (Table.names contracts).Nodup) (directory : Option Path) (s : Site σ)
    (hids : ∀ side, 47 ∉ (c.endpoint side).client.chainId) :
    ∃ ended t, Attempted c contracts directory s ended t ∧
      (∀ e, ended .a = .error e → installSystem contracts directory ⟨c, s⟩ = .error e ⟨c, t⟩) ∧
      (∀ atA e, ended .a = .ok atA → ended .b = .error e →
        installSystem contracts directory ⟨c, s⟩ = .error e ⟨c, t⟩) ∧
      ∀ d side addresses, directory = some d → ended side = .ok addresses → Lasting addresses →
        ∀ (τ : Type) (c' : Campaign τ) (u : Site (Logged JournalEntry τ)),
          (∀ side, (c'.endpoint side).client.chainId = (c.endpoint side).client.chainId) →
          u.files = t.files →
          Logged.Adds (fun x => ¬ JournalEntry.Deploys side x) u.outside
              (Act.final (installSystem contracts directory) ⟨c'.noted, u⟩).site.outside ∧
            ∀ run, installSystem contracts directory ⟨c'.noted, u⟩ = .ok () run →
              ∀ p ∈ addresses,
                Table.get? p.1 (run.campaign.endpoint side).contracts = some ⟨p.2⟩ := by
  obtain ⟨ended, t, hattempted⟩ := exists_attempted c contracts directory s
  refine ⟨ended, t, hattempted, fun e hA => ?_, fun atA e hA hB => ?_, ?_⟩
  · exact hattempted.installSystem_error (by rw [bothEnds, hA]; rfl)
  · exact hattempted.installSystem_error (by rw [bothEnds, hA, hB]; rfl)
  · rintro d side addresses rfl hok hlasting τ c' u hsame hfiles
    obtain ⟨set, rfl⟩ : ∃ set : ContractSet, contracts = set.files :=
      ⟨⟨contracts, hcontracts, hattempted.hasKernel hok⟩, rfl⟩
    obtain ⟨hnames, cache, hremembers, hgiven⟩ := hattempted.remembers hids side hok hlasting
    rw [← hfiles, ← hsame side] at hremembers
    have hids' : ∀ side, 47 ∉ (c'.endpoint side).client.chainId := fun side => by
      rw [hsame side]
      exact hids side
    obtain ⟨hadds, hsucceeds⟩ := installSystem_of_remembers hids' hremembers
    refine ⟨hadds, fun run hrun p hp => ?_⟩
    rw [hsucceeds run hrun]
    exact get?_withAddresses_restrict hnames hgiven _ hp

end Resumption

/-! ## A chain that refuses at first -/

section Refused

open Bootstrap (justKernel kernelAt noCaches cacheHome)

/-- Two local chains with given clients. -/
def twoChains (a b : ChainClient Unit) : Campaign Unit where
  a := { name := localA.name, definition := localA, client := a }
  b := { name := localB.name, definition := localB, client := b }
  link := {
    chainA := localA, chainB := localB
    connectionA := .str "connection-0", connectionB := .str "connection-0" }

/-- A chain that refuses everything. -/
def refusing (id : Text) : ChainClient Unit where
  chainId := id
  sender := "osmo1sender"
  answer _ := throw (.contract .null "refused")

/-- The first of the chains refuses everything, the second makes a kernel. -/
def refusedOnA : Campaign Unit :=
  twoChains (refusing "localosmosis-1") (kernelAt "localosmosis-2" "osmo1kernelb")

/-- Both chains make kernels. -/
def acceptedOnBoth : Campaign Unit :=
  twoChains (kernelAt "localosmosis-1" "osmo1kernela") (kernelAt "localosmosis-2" "osmo1later")

theorem noSlash_refusedOnA : ∀ side, 47 ∉ (refusedOnA.endpoint side).client.chainId := by
  rintro (_ | _) <;> decide

theorem noSlash_acceptedOnBoth : ∀ side, 47 ∉ (acceptedOnBoth.endpoint side).client.chainId := by
  rintro (_ | _) <;> decide

/-- The site after the first attempt. -/
def afterRefusal : Site Unit :=
  (Act.outcome (setUpAt refusedOnA justKernel.files (some (Path.ofText "cache")) .b)
    ⟨noCaches, ()⟩).2

theorem attempted_refusedOnA :
    Attempted refusedOnA justKernel.files (some (Path.ofText "cache")) ⟨noCaches, ()⟩
      (fun side => side.pick (.error (.bootstrap "localosmosis-1" (.contract .null "refused")))
        (.ok [(kernelName, .str "osmo1kernelb")])) afterRefusal := ⟨⟨noCaches, ()⟩, rfl, rfl⟩

theorem lasting_kernelb : Lasting [(kernelName, .str "osmo1kernelb")] where
  full := List.forall_mem_singleton.2 rfl
  names := List.forall_mem_singleton.2 (by decide)
  texts := List.forall_mem_singleton.2 fun s hs => by
    cases hs
    decide

theorem remembers_afterRefusal :
    ∃ cache, Remembers afterRefusal.files (Path.ofText "cache")
        (acceptedOnBoth.endpoint .b).client.chainId justKernel.names cache ∧
      Table.get? kernelName cache.contracts = some (.str "osmo1kernelb") := by
  obtain ⟨-, cache, hremembers, hsame⟩ :=
    attempted_refusedOnA.remembers noSlash_refusedOnA .b rfl lasting_kernelb
  exact ⟨cache, hremembers, hsame kernelName justKernel.hasKernel⟩

/-- The later attempt makes a kernel on the first chain and finds that of the second. -/
theorem attempted_acceptedOnBoth :
    ∃ t, Attempted acceptedOnBoth.noted justKernel.files (some (Path.ofText "cache"))
      ⟨afterRefusal.files, ⟨[], ()⟩⟩
      (fun side => .ok (side.pick [(kernelName, .str "osmo1kernela")]
        [(kernelName, .str "osmo1kernelb")])) t := by
  obtain ⟨cache, hremembers, hkernel⟩ := remembers_afterRefusal
  obtain ⟨ended, t, hattempted, hended, -⟩ := exists_attempted_of_remembers
    (c := acceptedOnBoth) (s := ⟨afterRefusal.files, ⟨[], ()⟩⟩) noSlash_acceptedOnBoth hremembers
  have hA : ended .a = .ok [(kernelName, .str "osmo1kernela")] := by
    have hmade : ((setUpAt acceptedOnBoth.noted justKernel.files (some (Path.ofText "cache"))
        .a).outcome ⟨afterRefusal.files, ⟨[], ()⟩⟩).1 = .ok [(kernelName, .str "osmo1kernela")] :=
      rfl
    obtain ⟨u, hrun, -⟩ := hattempted
    rwa [hrun] at hmade
  have hB : ended .b = .ok [(kernelName, .str "osmo1kernelb")] := by
    have hnames : justKernel.names = [kernelName] := rfl
    rw [hended, hnames, Table.restrict_cons, hkernel]
    rfl
  have hended' : ended = fun side => .ok (side.pick [(kernelName, .str "osmo1kernela")]
      [(kernelName, .str "osmo1kernelb")]) := by
    funext side
    cases side with
    | a => exact hA
    | b => exact hB
  exact ⟨t, hended' ▸ hattempted⟩

theorem sortedNames_kernel {e : Endpoint (Logged JournalEntry Unit)} (hempty : e.contracts = [])
    (address : Json) :
    (e.withAddresses [(kernelName, address)]).sortedNames = [kernelName].mergeSort Text.le :=
  sortedNames_withAddresses hempty (List.nodup_singleton kernelName)

theorem checked_acceptedOnBoth (o : Logged JournalEntry Unit) :
    Endpoint.checkConsistency
      (acceptedOnBoth.noted.a.withAddresses [(kernelName, .str "osmo1kernela")])
      (acceptedOnBoth.noted.b.withAddresses [(kernelName, .str "osmo1kernelb")]) o = .ok () o := by
  rw [Endpoint.checkConsistency, sortedNames_kernel rfl, sortedNames_kernel rfl, bne_self_eq_false]
  rfl

/-- A first attempt that the first chain refuses fails and changes no addresses.  A later attempt
with the same caches succeeds; it deploys nothing on the second chain, whose kernel is that of the
first attempt. -/
theorem installSystem_resumes_afterRefusal :
    installSystem justKernel.files (some (Path.ofText "cache")) ⟨refusedOnA, ⟨noCaches, ()⟩⟩ =
        .error (.bootstrap "localosmosis-1" (.contract .null "refused"))
          ⟨refusedOnA, afterRefusal⟩ ∧
      ∃ run, installSystem justKernel.files (some (Path.ofText "cache"))
          ⟨acceptedOnBoth.noted, ⟨afterRefusal.files, ⟨[], ()⟩⟩⟩ = .ok () run ∧
        (∀ x ∈ run.site.outside.log, ¬ x.Deploys .b) ∧
        Table.get? kernelName run.campaign.b.contracts = some ⟨.str "osmo1kernelb"⟩ := by
  obtain ⟨ended, t, hattempted, hfails, -, hresumes⟩ := installSystem_resumes refusedOnA
    justKernel.files justKernel.nodup (some (Path.ofText "cache")) ⟨noCaches, ()⟩ noSlash_refusedOnA
  obtain ⟨rfl, rfl⟩ := hattempted.unique attempted_refusedOnA
  obtain ⟨u, hlater⟩ := attempted_acceptedOnBoth
  have hrun := hlater.installSystem_ok fun _ => rfl
  rw [Run.onSite_run_ok (Site.onOutside_run_ok (checked_acceptedOnBoth u.outside))] at hrun
  obtain ⟨⟨l, hlog, hl⟩, haddresses⟩ := hresumes (Path.ofText "cache") .b _ rfl rfl lasting_kernelb
    Unit acceptedOnBoth ⟨afterRefusal.files, ⟨[], ()⟩⟩ (by rintro (_ | _) <;> rfl) rfl
  rw [Act.final_ok hrun] at hlog
  refine ⟨hfails _ rfl, _, hrun, fun x hx => hl x ?_, ?_⟩
  · rwa [hlog] at hx
  · exact haddresses _ hrun _ (List.mem_singleton.2 rfl)

end Refused

end Scenario

end CrossChain
