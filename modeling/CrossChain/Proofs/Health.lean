import CrossChain.Health
import CrossChain.Proofs.Command
import CrossChain.Rehearsal.Address
import Mathlib.Data.List.Forall2

/-!
# What a health report says

The height of every chain is looked up in turn (`Health.lookUpEach`).  As long as the failures of
these lookups only tell that a chain is not ready, and the relayer's own check ends, the command
makes one check of each chain and then one of the relayer, prints them all in either format with the
same subjects and statuses, and ends with status 0 just when all of them are healthy
(`Health.command_reports`).
-/

namespace CrossChain

namespace Health

open Command

/-! ## Lookups -/

/-- A chain, and how the lookup of its height ended. -/
structure Lookup where
  chain : ChainDefinition
  ended : Except Failure Int

namespace Lookup

/-- The lookup gave a height, or failed with a request, a missing name or a wrong value. -/
def IsOrdinary (l : Lookup) : Prop :=
  match l.ended with
  | .ok _ => True
  | .error e => e.isRequest ∨ e.isLookup ∨ e.isValue

instance decidableIsOrdinary : (l : Lookup) → Decidable l.IsOrdinary
  | ⟨_, .ok _⟩ => inferInstanceAs (Decidable True)
  | ⟨_, .error e⟩ => inferInstanceAs (Decidable (e.isRequest ∨ e.isLookup ∨ e.isValue))

/-- What was found out about the chain. -/
def found (l : Lookup) : Text × Json :=
  match l.ended with
  | .ok height => ("block_height", .int height)
  | .error e => ("error", .str e.message)

/-- How the chain is. -/
def status (l : Lookup) : Status :=
  match l.ended with
  | .ok height => if 1 ≤ height then .healthy else .degraded
  | .error _ => .unhealthy

/-- The check that is made of the lookup. -/
def check (l : Lookup) : Check :=
  ⟨"chain:" ++ l.chain.name, l.status, chainDetails l.chain l.found⟩

/-- A check tells of the lookup. -/
structure ToldBy (l : Lookup) (c : Check) : Prop where
  subject : c.subject = "chain:" ++ l.chain.name
  healthy : c.status = .healthy ↔ ∃ height, l.ended = .ok height ∧ 1 ≤ height
  degraded : c.status = .degraded ↔ ∃ height, l.ended = .ok height ∧ height < 1
  unhealthy : c.status = .unhealthy ↔ ∃ e, l.ended = .error e
  details : c.details = chainDetails l.chain l.found

theorem toldBy_check (l : Lookup) : l.ToldBy l.check := by
  obtain ⟨chain, ended⟩ := l
  cases ended with
  | error e =>
    exact ⟨rfl, ⟨nofun, nofun⟩, ⟨nofun, nofun⟩, ⟨fun _ => ⟨e, rfl⟩, fun _ => rfl⟩, rfl⟩
  | ok height =>
    by_cases hheight : 1 ≤ height
    · have hstatus : (check ⟨chain, .ok height⟩).status = .healthy := if_pos hheight
      refine ⟨rfl, ?_, ?_, ?_, rfl⟩ <;> rw [hstatus]
      · exact ⟨fun _ => ⟨height, rfl, hheight⟩, fun _ => rfl⟩
      · exact ⟨nofun, fun ⟨_, hsame, hlow⟩ => by cases hsame; omega⟩
      · exact ⟨nofun, nofun⟩
    · have hstatus : (check ⟨chain, .ok height⟩).status = .degraded := if_neg hheight
      refine ⟨rfl, ?_, ?_, ?_, rfl⟩ <;> rw [hstatus]
      · exact ⟨nofun, fun ⟨_, hsame, hhigh⟩ => by cases hsame; omega⟩
      · exact ⟨fun _ => ⟨height, rfl, Int.not_le.1 hheight⟩, fun _ => rfl⟩
      · exact ⟨nofun, nofun⟩

/-- What is told of a lookup is one check. -/
theorem toldBy_iff {l : Lookup} {c : Check} : l.ToldBy c ↔ l.check = c := by
  refine ⟨fun h => ?_, fun h => h ▸ l.toldBy_check⟩
  have hcheck := l.toldBy_check
  have hstatus : l.check.status = c.status := by
    cases hs : l.check.status with
    | healthy => exact (h.healthy.2 (hcheck.healthy.1 hs)).symm
    | degraded => exact (h.degraded.2 (hcheck.degraded.1 hs)).symm
    | unhealthy => exact (h.unhealthy.2 (hcheck.unhealthy.1 hs)).symm
  cases c
  exact Check.mk.injEq .. ▸ ⟨h.subject.symm, hstatus, h.details.symm⟩

theorem forall₂_toldBy_iff {ls : List Lookup} {cs : List Check} :
    List.Forall₂ ToldBy ls cs ↔ ls.map check = cs := by
  have hsame : ToldBy = fun l c => check l = c := by
    funext l c
    exact propext toldBy_iff
  rw [hsame, ← List.forall₂_map_left_iff (R := (· = ·)), List.forall₂_eq_eq_eq]

end Lookup

section Checks

variable {σ : Type} (o : Outside σ)

/-- Looks up the height of a chain. -/
def lookUp (d : ChainDefinition) (s : σ) : Lookup × σ :=
  let (ended, t) := (Readiness.blockHeight o.fetch d.rpcUrl Readiness.requestTimeout).outcome s
  (⟨d, ended⟩, t)

/-- Looks up the heights of chains in turn, whatever the lookups before give. -/
def lookUpEach : List ChainDefinition → σ → List Lookup × σ
  | [], s => ([], s)
  | d :: ds, s =>
    let first := lookUp o d s
    let rest := lookUpEach ds first.2
    (first.1 :: rest.1, rest.2)

theorem lookUpEach_cons (d : ChainDefinition) (ds : List ChainDefinition) (s : σ) :
    lookUpEach o (d :: ds) s =
      ((lookUp o d s).1 :: (lookUpEach o ds (lookUp o d s).2).1,
        (lookUpEach o ds (lookUp o d s).2).2) := rfl

/-- Every chain is looked up, in order. -/
theorem chains_lookUpEach (ds : List ChainDefinition) (s : σ) :
    (lookUpEach o ds s).1.map Lookup.chain = ds := by
  induction ds generalizing s with
  | nil => rfl
  | cons d ds ih => exact congrArg (d :: ·) (ih _)

/-! ## Checks -/

variable {o} {s t : σ}

theorem checkChain_run {d : ChainDefinition} (h : (lookUp o d s).1.IsOrdinary) :
    checkChain o d s = .ok (lookUp o d s).1.check (lookUp o d s).2 := by
  unfold lookUp Act.outcome at h ⊢
  rw [checkChain]
  cases hrun : Readiness.blockHeight o.fetch d.rpcUrl Readiness.requestTimeout s with
  | ok height t =>
    rw [Act.bind_run_ok (Act.attempt_run_ok hrun)]
    rfl
  | error e t =>
    rw [hrun] at h
    have he : Readiness.isNotReady e = true := by
      rw [Readiness.isNotReady, Bool.or_eq_true, Bool.or_eq_true, or_assoc]
      exact h
    rw [Act.bind_run_ok (Act.attempt_run_error hrun)]
    simp only [he]
    rfl

theorem mapM_checkChain_run {ds : List ChainDefinition}
    (h : ∀ l ∈ (lookUpEach o ds s).1, l.IsOrdinary) :
    ds.mapM (checkChain o) s =
      .ok ((lookUpEach o ds s).1.map Lookup.check) (lookUpEach o ds s).2 := by
  induction ds generalizing s with
  | nil => rfl
  | cons d ds ih =>
    rw [lookUpEach_cons] at h ⊢
    obtain ⟨hfirst, hrest⟩ := List.forall_mem_cons.1 h
    rw [List.mapM_cons, Act.bind_run_ok (checkChain_run hfirst), Act.bind_run_ok (ih hrest)]
    rfl

/-- The check of a relayer that is ready or not. -/
def relayerCheck (settings : Settings) (ready : Bool) : Check :=
  ⟨"relayer", if ready then .healthy else .unhealthy, [("binary", .str settings.hermesBinary)]⟩

theorem checkRelayer_run [Json.Limits] {settings : Settings} {ready : Bool}
    (h : (Relayer.hermes settings.hermesBinary o.run).isReady s = .ok ready t) :
    checkRelayer settings o s = .ok (relayerCheck settings ready) t := by
  rw [checkRelayer, Act.bind_run_ok h]
  rfl

/-- The checks of the chains and that of the relayer, none of which is lost to another. -/
theorem checks_run [Json.Limits] {settings : Settings} {ready : Bool}
    (h : ∀ l ∈ (lookUpEach o settings.chains s).1, l.IsOrdinary)
    (hready : (Relayer.hermes settings.hermesBinary o.run).isReady
      (lookUpEach o settings.chains s).2 = .ok ready t) :
    checks settings o s = .ok
      ((lookUpEach o settings.chains s).1.map Lookup.check ++ [relayerCheck settings ready]) t := by
  rw [checks, Act.bind_run_ok (mapM_checkChain_run h), Act.bind_run_ok (checkRelayer_run hready)]
  rfl

end Checks

theorem allHealthy_iff {cs : List Check} :
    allHealthy cs = true ↔ ∀ c ∈ cs, c.status = .healthy := by
  rw [allHealthy, List.all_eq_true]
  exact forall₂_congr fun c _ => beq_iff_eq

/-! ## Reports -/

/-- The line that a report in words has for a check. -/
def Check.heading (c : Check) : Text :=
  c.status.mark ++ " " ++ c.subject ++ ": " ++ c.status.title

/-- A line starts with a bracket. -/
def isHeading (line : Text) : Bool := line.head? == some 91

/-- Lines tell of checks in words: those that start with a bracket are the headings of the checks,
in order, every detail has a line, and the last line tells whether all is well. -/
structure InWords (cs : List Check) (well : Bool) (lines : List Text) : Prop where
  headings : lines.filter isHeading = cs.map Check.heading
  details : ∀ c ∈ cs, ∀ p ∈ c.details, text "      " ++ p.1 ++ ": " ++ p.2.display ∈ lines
  verdict : lines.getLast? = some ("Overall Status: " ++
    if well then text "HEALTHY" else text "DEGRADED/UNHEALTHY")

/-- An object tells of a check. -/
structure Check.InObject (c : Check) (v : Json) : Prop where
  subject : v.member "check" = .ok (.str c.subject)
  status : v.member "status" = .ok (.str c.status.name)
  details : v.member "details" = .ok (.obj c.details)

/-- An object tells of checks: one of its members has an object for each of them, in order, and
another one tells whether all is well. -/
structure InObject (cs : List Check) (well : Bool) (v : Json) : Prop where
  checks : ∃ items, v.member "checks" = .ok (.arr items) ∧ List.Forall₂ Check.InObject cs items
  verdict : v.member "overall_status" =
    .ok (.str (if well then text "healthy" else text "degraded"))

theorem inObject_jsonReport (cs : List Check) (time : Int) :
    InObject cs (allHealthy cs) (jsonReport cs time) where
  checks := by
    refine ⟨cs.map Check.toJson, rfl, ?_⟩
    rw [List.forall₂_map_right_iff, List.forall₂_same]
    exact fun c _ => ⟨rfl, rfl, rfl⟩
  verdict := rfl

/-- Of the lines of a check only the first is a heading. -/
theorem filter_lines (c : Check) : c.lines.filter isHeading = [c.heading] := by
  have hlines : c.lines = c.heading ::
      (c.details.map (fun p => text "      " ++ p.1 ++ ": " ++ p.2.display) ++ [text ""]) := rfl
  have hheading : isHeading c.heading = true := by
    rw [Check.heading]
    cases c.status <;> rfl
  have hdetails : (c.details.map fun p => text "      " ++ p.1 ++ ": " ++ p.2.display).filter
      isHeading = [] := by
    refine List.filter_eq_nil_iff.2 fun line hline => ?_
    obtain ⟨p, -, rfl⟩ := List.mem_map.1 hline
    exact Bool.false_ne_true
  rw [hlines, List.filter_cons_of_pos hheading, List.filter_append, hdetails]
  rfl

theorem inWords_textReport (cs : List Check) : InWords cs (allHealthy cs) (textReport cs) where
  headings := by
    have hopening : [ruler, "IBC Harness Health Check", ruler, ""].filter isHeading = [] := by
      decide
    have hclosing : ∀ well : Bool, [ruler, text "Overall Status: " ++
        if well then text "HEALTHY" else text "DEGRADED/UNHEALTHY"].filter isHeading = [] := by
      decide
    rw [textReport, List.filter_append, List.filter_append, hopening, hclosing, List.nil_append,
      List.append_nil, List.filter_flatMap, List.map_eq_flatMap]
    exact congrArg (List.flatMap · cs) (funext filter_lines)
  details c hc p hp := by
    have hline : text "      " ++ p.1 ++ ": " ++ p.2.display ∈ c.lines :=
      List.mem_append_left _ (List.mem_cons_of_mem _ (List.mem_map_of_mem hp))
    exact List.mem_append_left _ (List.mem_append_right _ (List.mem_flatMap_of_mem hc hline))
  verdict := by
    rw [textReport, List.getLast?_append]
    rfl

/-! ## The command -/

section Run

variable [Json.Limits] {σ : Type} {settings : Settings} {o : Outside σ} {s t u : σ}
  {cs : List Check}
variable {arguments : List Text}

theorem command_run {lines : List Text} (h : checks settings o s = .ok cs t)
    (hreport : report o cs (arguments.head? == some (text "json")) t = .ok lines u)
    (files : FileTree) :
    command settings o arguments ⟨files, s⟩ =
      .ok (ofLines lines, .status (if allHealthy cs then 0 else 1)) ⟨files, u⟩ := by
  have hrun : run settings o arguments ⟨[], ⟨files, s⟩⟩ =
      .ok (if allHealthy cs then 0 else 1) ⟨lines, ⟨files, u⟩⟩ := by
    rw [run, Act.bind_run_ok (outside_run_ok h), Act.bind_run_ok (outside_run_ok hreport),
      Act.bind_run_ok (forM_printLine_run lines _)]
    rfl
  rw [command, finish, hrun]

theorem command_inWords (h : checks settings o s = .ok cs t)
    (hformat : arguments.head? ≠ some (text "json")) (files : FileTree) :
    command settings o arguments ⟨files, s⟩ =
      .ok (ofLines (textReport cs), .status (if allHealthy cs then 0 else 1)) ⟨files, t⟩ := by
  refine command_run h ?_ files
  rw [report, beq_eq_false_iff_ne.2 hformat]
  rfl

theorem command_inObject {time : Binary64} (h : checks settings o s = .ok cs t)
    (hformat : arguments.head? = some (text "json")) (hnow : o.now t = .ok time u)
    (files : FileTree) :
    command settings o arguments ⟨files, s⟩ =
      .ok (ofLines [(jsonReport cs (time.truncate?.getD 0)).indented],
        .status (if allHealthy cs then 0 else 1)) ⟨files, u⟩ := by
  refine command_run h ?_ files
  rw [report, beq_iff_eq.2 hformat, if_pos rfl, Act.bind_run_ok hnow]
  rfl

end Run

/-! ## The law -/

/-- Whatever the nodes, the relayer and the clock do: if the lookups of heights fail only with a
request, a missing name or a wrong value, and the relayer's check ends, then there is one check of
each chain, in order, and one of the relayer.  A chain is healthy if a positive height was found,
degraded if it was another height, and unhealthy if the lookup failed.  In words as in JSON the
command prints all these checks and whether all is well, which it is just when all are healthy, and
ends with status 0 then and with status 1 otherwise. -/
theorem command_reports [Json.Limits] {σ : Type} (settings : Settings) (o : Outside σ)
    (files : FileTree) (s t : σ) (ready : Bool)
    (h : ∀ l ∈ (lookUpEach o settings.chains s).1, l.IsOrdinary)
    (hready : (Relayer.hermes settings.hermesBinary o.run).isReady
      (lookUpEach o settings.chains s).2 = .ok ready t) :
    ∃ (chains : List Check) (relayer : Check) (well : Bool),
      (lookUpEach o settings.chains s).1.map Lookup.chain = settings.chains ∧
      List.Forall₂ Lookup.ToldBy (lookUpEach o settings.chains s).1 chains ∧
      relayer.subject = "relayer" ∧
      relayer.status = (if ready then .healthy else .unhealthy) ∧
      (well = true ↔ ∀ c ∈ chains ++ [relayer], c.status = .healthy) ∧
      (∀ arguments : List Text, arguments.head? ≠ some (text "json") →
        ∃ lines, InWords (chains ++ [relayer]) well lines ∧
          command settings o arguments ⟨files, s⟩ =
            .ok (ofLines lines, .status (if well then 0 else 1)) ⟨files, t⟩) ∧
      ∀ (arguments : List Text) (time : Binary64) (u : σ), arguments.head? = some (text "json") →
        o.now t = .ok time u →
        ∃ report, InObject (chains ++ [relayer]) well report ∧
          command settings o arguments ⟨files, s⟩ =
            .ok (ofLines [report.indented], .status (if well then 0 else 1)) ⟨files, u⟩ := by
  have hchecks := checks_run h hready
  exact ⟨_, _, _, chains_lookUpEach o settings.chains s, Lookup.forall₂_toldBy_iff.2 rfl, rfl, rfl,
    allHealthy_iff,
    fun arguments hformat => ⟨_, inWords_textReport _, command_inWords hchecks hformat files⟩,
    fun arguments time u hformat hnow =>
      ⟨_, inObject_jsonReport _ _, command_inObject hchecks hformat hnow files⟩⟩

/-! ### One node -/

/-- A world in which the node of the first chain has produced twelve blocks, no other node answers,
and hermes is well. -/
def oneNode : Outside Unit where
  sleep _ := return
  randomBytes count := return List.replicate count 0
  addressOf := Bech32.write
  fetch url _ :=
    if url = "http://localhost:20121/status" then return {
      checked := .ok ()
      json := .ok (.obj [("result",
        .obj [("sync_info", .obj [("latest_block_height", .str "12")])])]) }
    else throw (.request (.connection "refused"))
  run _ := return { stdout := "\x7b\"status\":\"success\"\x7d" }
  connect _ _ := throw (.broken "refused")
  now := return .ofDecimal false 0 0

theorem isReady_oneNode (s : Unit) :
    (Relayer.hermes Settings.default.hermesBinary oneNode.run).isReady s = .ok true () := by
  have hends : Act.endsWell (Relayer.hermes Settings.default.hermesBinary oneNode.run).isReady s
      (fun ready _ => ready) = true := by
    cases s
    decide +kernel
  obtain ⟨ready, t, hrun, rfl⟩ := Act.exists_of_endsWell hends
  exact hrun

/-- The first chain and the relayer are healthy and the second chain is not: the report has a line
for each of them, and the command ends with status 1. -/
theorem command_reports_oneNode :
    (∀ l ∈ (lookUpEach oneNode Settings.default.chains ()).1, l.IsOrdinary) ∧
      ∃ lines : List Text, lines.filter isHeading = [text "[OK] chain:osmo-a: HEALTHY",
          text "[FAIL] chain:osmo-b: UNHEALTHY", text "[OK] relayer: HEALTHY"] ∧
        command .default oneNode [] ⟨{}, ()⟩ = .ok (ofLines lines, .status 1) ⟨{}, ()⟩ := by
  have hordinary : ∀ l ∈ (lookUpEach oneNode Settings.default.chains ()).1, l.IsOrdinary := by
    decide +kernel
  obtain ⟨chains, relayer, well, -, htold, hsubject, hstatus, hwell, hwords, -⟩ :=
    command_reports .default oneNode {} () () true hordinary (isReady_oneNode _)
  obtain ⟨lines, hlines, hcommand⟩ := hwords [] nofun
  have hchains := Lookup.forall₂_toldBy_iff.1 htold
  have hheadings : chains.map Check.heading = [text "[OK] chain:osmo-a: HEALTHY",
      text "[FAIL] chain:osmo-b: UNHEALTHY"] := by
    rw [← hchains]
    decide +kernel
  have hnot : ¬ ∀ c ∈ chains, c.status = .healthy := by
    rw [← hchains]
    decide +kernel
  have hunwell : well = false := Bool.eq_false_iff.2 fun hall =>
    hnot (List.forall_mem_append.1 (hwell.1 hall)).1
  refine ⟨hordinary, lines, ?_, by rw [hcommand, hunwell]; rfl⟩
  rw [hlines.headings, List.map_append, hheadings, List.map_singleton, Check.heading, hsubject,
    hstatus]
  rfl

end Health

end CrossChain
