import CrossChain.Deploy
import CrossChain.Proofs.Command
import CrossChain.Rehearsal.Address

/-!
# Deployments on several chains

A deployment is meant to try every chain that is listed, whatever happens on those before it
(`Deploy.attemptEach`).  It does so as long as the chains fail with failures that are reported; the
first other failure ends it, and the chains after that one are not tried
(`Deploy.command_attempts`).
-/

namespace CrossChain

namespace Deploy

open Command

/-! ## Attempts -/

/-- A chain on which a deployment was tried, and how that ended. -/
structure Attempt where
  chain : Text
  ended : Except Failure Unit

namespace Attempt

/-- The lines that report a failure. -/
def report (a : Attempt) : List Text :=
  match a.ended with
  | .ok _ => []
  | .error e => ["[ERROR] " ++ a.chain ++ ": " ++ e.message]

/-- Whether the failure of an attempt, if there is one, is of a kind that is reported. -/
def isContained (a : Attempt) : Bool :=
  match a.ended with
  | .ok _ => true
  | .error e => isReported e

/-- The chain of an attempt that failed. -/
def failed? (a : Attempt) : Option Text :=
  match a.ended with
  | .ok _ => none
  | .error _ => some a.chain

theorem eq_chain_of_failed? {a : Attempt} {c : Text} (h : a.failed? = some c) : c = a.chain := by
  rw [failed?] at h
  split at h
  · cases h
  · exact (Option.some.inj h).symm

end Attempt

section Attempts

variable [Json.Limits] {σ : Type} (settings : Settings) (o : Outside σ) (options : Options)

/-- Deploys on a chain and reports the failure, whatever it is. -/
def tryOn (name : Text) (s : Logged Text (Site σ)) : Attempt × Logged Text (Site σ) :=
  let (ended, t) := (onChain settings o options name).outcome s
  (⟨name, ended⟩, { t with log := t.log ++ Attempt.report ⟨name, ended⟩ })

/-- Deploys on every one of the chains in turn, whatever happens on those before it. -/
def attemptEach : List Text → Logged Text (Site σ) → List Attempt × Logged Text (Site σ)
  | [], s => ([], s)
  | name :: names, s =>
    let first := tryOn settings o options name s
    let rest := attemptEach names first.2
    (first.1 :: rest.1, rest.2)

theorem attemptEach_cons (name : Text) (names : List Text) (s : Logged Text (Site σ)) :
    attemptEach settings o options (name :: names) s =
      ((tryOn settings o options name s).1 ::
          (attemptEach settings o options names (tryOn settings o options name s).2).1,
        (attemptEach settings o options names (tryOn settings o options name s).2).2) := rfl

theorem chains_attemptEach (names : List Text) (s : Logged Text (Site σ)) :
    (attemptEach settings o options names s).1.map Attempt.chain = names := by
  induction names generalizing s with
  | nil => rfl
  | cons name names ih => exact congrArg (name :: ·) (ih _)

/-! ### One chain -/

variable {settings o options} {name : Text} {s t : Logged Text (Site σ)} {e : Failure}

/-- A deployment whose failure is reported is an attempt like any other. -/
theorem attempt_of_contained (h : (tryOn settings o options name s).1.isContained) :
    attempt settings o options name s =
      .ok (tryOn settings o options name s).1.failed?.isNone
        (tryOn settings o options name s).2 := by
  unfold tryOn Act.outcome at h ⊢
  rw [attempt]
  cases hrun : onChain settings o options name s with
  | ok a t =>
    rw [Act.bind_run_ok (Act.attempt_run_ok hrun)]
    simp only [Attempt.report, List.append_nil]
    rfl
  | error e t =>
    rw [hrun] at h
    have he : isReported e = true := h
    rw [Act.bind_run_ok (Act.attempt_run_error hrun)]
    simp only [he]
    rfl

/-- Any other failure is not caught. -/
theorem attempt_of_unreported (h : onChain settings o options name s = .error e t)
    (he : isReported e = false) : attempt settings o options name s = .error e t := by
  rw [attempt, Act.bind_run_ok (Act.attempt_run_error h)]
  simp only [he]
  rfl

/-! ### All chains -/

/-- The loop over the chains. -/
def loop (settings : Settings) (o : Outside σ) (options : Options) (names : List Text) :
    Printing σ (List Text) :=
  names.filterMapM fun name =>
    return if ← attempt settings o options name then none else some name

theorem loop_cons (names : List Text) :
    loop settings o options (name :: names) = do
      let well ← attempt settings o options name
      let failed ← loop settings o options names
      return if well then failed else name :: failed := by
  rw [loop, List.filterMapM_cons, loop]
  simp only [bind_assoc, pure_bind]
  apply bind_congr
  intro well
  cases well <;> simp

theorem loop_of_contained {names : List Text}
    (h : ∀ a ∈ (attemptEach settings o options names s).1, a.isContained) :
    loop settings o options names s =
      .ok ((attemptEach settings o options names s).1.filterMap Attempt.failed?)
        (attemptEach settings o options names s).2 := by
  induction names generalizing s with
  | nil => rfl
  | cons name names ih =>
    rw [attemptEach_cons] at h ⊢
    obtain ⟨hfirst, hrest⟩ := List.forall_mem_cons.1 h
    rw [loop_cons, Act.bind_run_ok (attempt_of_contained hfirst), Act.bind_run_ok (ih hrest)]
    cases hfailed : (tryOn settings o options name s).1.failed? with
    | none =>
      rw [List.filterMap_cons_none hfailed]
      rfl
    | some failed =>
      have hname : failed = name := Attempt.eq_chain_of_failed? hfailed
      rw [List.filterMap_cons_some hfailed, hname]
      rfl

/-- The first failure that is not reported ends the loop, whatever is listed after it. -/
theorem loop_of_unreported {before after : List Text}
    (hbefore : ∀ a ∈ (attemptEach settings o options before s).1, a.isContained)
    (h : onChain settings o options name (attemptEach settings o options before s).2 = .error e t)
    (he : isReported e = false) :
    loop settings o options (before ++ name :: after) s = .error e t := by
  induction before generalizing s with
  | nil =>
    rw [List.nil_append, loop_cons]
    exact Act.bind_run_error (attempt_of_unreported h he)
  | cons first before ih =>
    rw [attemptEach_cons] at hbefore h
    obtain ⟨hfirst, hrest⟩ := List.forall_mem_cons.1 hbefore
    rw [List.cons_append, loop_cons, Act.bind_run_ok (attempt_of_contained hfirst)]
    exact Act.bind_run_error (ih hrest h)

/-- Where some failure is not reported there is a first such failure. -/
theorem exists_unreported {names : List Text}
    (h : ¬ ∀ a ∈ (attemptEach settings o options names s).1, a.isContained) :
    ∃ before name after e t, names = before ++ name :: after ∧
      (∀ a ∈ (attemptEach settings o options before s).1, a.isContained) ∧
      onChain settings o options name (attemptEach settings o options before s).2 = .error e t ∧
      isReported e = false := by
  induction names generalizing s with
  | nil => exact absurd nofun h
  | cons name names ih =>
    by_cases hfirst : (tryOn settings o options name s).1.isContained
    · obtain ⟨before, name', after, e, t, rfl, hbefore, hrun, he⟩ :=
        ih fun hrest => h (List.forall_mem_cons.2 ⟨hfirst, hrest⟩)
      exact ⟨name :: before, name', after, e, t, rfl, List.forall_mem_cons.2 ⟨hfirst, hbefore⟩,
        hrun, he⟩
    · unfold tryOn Act.outcome at hfirst
      cases hrun : onChain settings o options name s with
      | ok a t =>
        rw [hrun] at hfirst
        exact absurd rfl hfirst
      | error e t =>
        rw [hrun] at hfirst
        exact ⟨[], name, names, e, t, rfl, nofun, hrun, Bool.not_eq_true _ ▸ hfirst⟩

/-! ### The command -/

/-- The lines before the first chain. -/
def opening : List Text := [ruler, "Andromeda OS Deployment", ruler]

/-- The lines after the last chain. -/
def closing (failed : List Text) : List Text :=
  [[], ruler, if failed.isEmpty then "All chains deployed" else "Failed: " ++ Text.join ", " failed]

/-- What comes after the opening lines. -/
theorem run_eq :
    run settings o options s = (do
      let failed ← loop settings o options options.chains
      printLine []
      printLine ruler
      if failed.isEmpty then
        printLine "All chains deployed"
        return 0
      else
        printLine ("Failed: " ++ Text.join ", " failed)
        return 1 : Printing σ Nat) ⟨s.log ++ opening, s.inner⟩ := by
  have hopening :
      s.log ++ opening = s.log ++ [ruler] ++ [text "Andromeda OS Deployment"] ++ [ruler] := by
    simp only [opening, List.append_assoc, List.cons_append, List.nil_append]
  rw [run, Act.bind_run_ok (printLine_run _ _), Act.bind_run_ok (printLine_run _ _),
    Act.bind_run_ok (printLine_run _ _), hopening]
  rfl

theorem run_of_ok {failed : List Text}
    (h : loop settings o options options.chains ⟨s.log ++ opening, s.inner⟩ = .ok failed t) :
    run settings o options s =
      .ok (if failed.isEmpty then 0 else 1) ⟨t.log ++ closing failed, t.inner⟩ := by
  rw [run_eq, Act.bind_run_ok h, Act.bind_run_ok (printLine_run _ _),
    Act.bind_run_ok (printLine_run _ _)]
  have hclosing : ∀ line : Text, t.log ++ [[]] ++ [ruler] ++ [line] = t.log ++ [[], ruler, line] :=
    fun line => by simp only [List.append_assoc, List.cons_append, List.nil_append]
  cases failed with
  | nil =>
    show EStateM.Result.ok 0 (⟨t.log ++ [[]] ++ [ruler] ++ [_], t.inner⟩ : Logged Text (Site σ)) = _
    rw [hclosing]
    rfl
  | cons name names =>
    show EStateM.Result.ok 1 (⟨t.log ++ [[]] ++ [ruler] ++ [_], t.inner⟩ : Logged Text (Site σ)) = _
    rw [hclosing]
    rfl

theorem run_of_error
    (h : loop settings o options options.chains ⟨s.log ++ opening, s.inner⟩ = .error e t) :
    run settings o options s = .error e t := by
  rw [run_eq, Act.bind_run_error h]

end Attempts

/-! ## The law -/

/-- A deployment on a list of chains, whatever nodes, files and clock do.  As long as all failures
are of the kinds that are reported, every chain is tried in order, each failure is reported, and the
command ends with status 1 and the names of the chains that failed, or with status 0 if there are
none.  The first failure of any other kind ends the command instead, and no chain after that is
tried. -/
theorem command_attempts [Json.Limits] {σ : Type} (settings : Settings) (o : Outside σ)
    (arguments : List Text) (options : Options) (h : read arguments = .run options) (s : Site σ) :
    let attempts := attemptEach settings o options options.chains ⟨opening, s⟩
    let failed := attempts.1.filterMap Attempt.failed?
    attempts.1.map Attempt.chain = options.chains ∧
    ((∀ a ∈ attempts.1, a.isContained) →
      command settings o arguments s =
        .ok (ofLines (attempts.2.log ++ closing failed), .status (if failed.isEmpty then 0 else 1))
          attempts.2.inner) ∧
    ((¬ ∀ a ∈ attempts.1, a.isContained) →
      ∃ before name after e t, options.chains = before ++ name :: after ∧
        (∀ a ∈ (attemptEach settings o options before ⟨opening, s⟩).1, a.isContained) ∧
        onChain settings o options name (attemptEach settings o options before ⟨opening, s⟩).2 =
          .error e t ∧
        isReported e = false ∧
        command settings o arguments s = .ok (ofLines t.log, .uncaught e) t.inner) := by
  intro attempts failed
  have hcommand : command settings o arguments s = finish (run settings o options) s := by
    rw [command, h]
  refine ⟨chains_attemptEach settings o options options.chains _, fun hall => ?_, fun hnot => ?_⟩
  · have hrun : run settings o options ⟨[], s⟩ = .ok (if failed.isEmpty then 0 else 1)
        ⟨attempts.2.log ++ closing failed, attempts.2.inner⟩ := run_of_ok (loop_of_contained hall)
    rw [hcommand, finish, hrun]
  · obtain ⟨before, name, after, e, t, hchains, hbefore, hfails, he⟩ := exists_unreported hnot
    refine ⟨before, name, after, e, t, hchains, hbefore, hfails, he, ?_⟩
    have hloop : loop settings o options options.chains ⟨opening, s⟩ = .error e t := by
      rw [hchains]
      exact loop_of_unreported hbefore hfails he
    have hrun : run settings o options ⟨[], s⟩ = .error e t := run_of_error hloop
    rw [hcommand, finish, hrun]

/-! ### Two chains -/

/-- Without a network the first chain is never ready, and the second is none that is known: both are
reported, and the command ends with status 1. -/
theorem command_attempts_offline :
    read ["osmo-a", "nope"] = .run { chains := ["osmo-a", "nope"] } ∧
      ∃ printed t, command .default .offline ["osmo-a", "nope"] ⟨{}, ()⟩ =
        .ok (ofLines (printed ++ closing ["osmo-a", "nope"]), .status 1) t := by
  have hread : read ["osmo-a", "nope"] = .run { chains := ["osmo-a", "nope"] } := by decide
  let attempts := attemptEach .default .offline { chains := ["osmo-a", "nope"] } ["osmo-a", "nope"]
    ⟨opening, ⟨{}, ()⟩⟩
  have hcontained : ∀ a ∈ attempts.1, a.isContained := by decide +kernel
  have hfailed : attempts.1.filterMap Attempt.failed? = [text "osmo-a", text "nope"] := by
    decide +kernel
  have hcommand := (command_attempts .default .offline _ _ hread ⟨{}, ()⟩).2.1 hcontained
  refine ⟨hread, attempts.2.log, attempts.2.inner, hcommand.trans ?_⟩
  rw [hfailed]
  rfl

/-- A world whose nodes are ready and whose clients send no coins; it keeps the ids of the chains
that were connected to. -/
def emptyFaucet : Outside (List Text) where
  sleep _ := return
  randomBytes count := return List.replicate count 0
  addressOf := Bech32.write
  fetch _ _ := return {
    checked := .ok ()
    json := .ok (.obj [("result",
      .obj [("sync_info", .obj [("latest_block_height", .str "12")])])]) }
  run _ := throw (.file (.reported "no processes"))
  connect d _ := fun ids => .ok {
    chainId := d.chainId
    sender := "osmo1sender"
    answer _ := throw (.broken "insufficient funds") } (ids ++ [d.chainId])
  now := return .ofDecimal false 0 0

/-- The faucet of the first chain fails: the command ends with that failure and with no status, and
never turns to the second chain. -/
theorem command_stops_at_faucet :
    ∃ printed e t,
      command .default emptyFaucet ["osmo-a", "osmo-b", "--fund", "5"] ⟨{}, []⟩ =
        .ok (printed, .uncaught e) t ∧
      e.message = "insufficient funds" ∧
      t.outside = [text "localosmosis-1", text "localosmosis-1"] := by
  have hcheck : (match command .default emptyFaucet
        ["osmo-a", "osmo-b", "--fund", "5"] ⟨{}, []⟩ with
      | .ok (_, .uncaught e) t => e.message == "insufficient funds" &&
          t.outside == [text "localosmosis-1", text "localosmosis-1"]
      | _ => false) = true := by decide +kernel
  cases hrun : command .default emptyFaucet ["osmo-a", "osmo-b", "--fund", "5"] ⟨{}, []⟩ with
  | error e t =>
    rw [hrun] at hcheck
    cases hcheck
  | ok p t =>
    obtain ⟨printed, exit⟩ := p
    rw [hrun] at hcheck
    cases exit with
    | status code => cases hcheck
    | uncaught e =>
      obtain ⟨hmessage, houtside⟩ := Bool.and_eq_true_iff.1 hcheck
      exact ⟨printed, e, t, rfl, beq_iff_eq.1 hmessage, beq_iff_eq.1 houtside⟩

end Deploy

end CrossChain
