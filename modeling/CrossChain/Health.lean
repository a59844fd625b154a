import CrossChain.Command
import CrossChain.Hermes.Relayer
import CrossChain.Json.Printer
import CrossChain.Outside

/-!
# Health reports

The command that looks at every chain and at the relayer, and reports in words or as JSON.  It ends
with status 0 if everything is healthy and with 1 otherwise.
-/

namespace CrossChain

variable [Json.Limits]

namespace Health

open Command

/-- How something is. -/
inductive Status
  | healthy
  | degraded
  | unhealthy
  deriving DecidableEq, Repr

/-- The name of a status. -/
def Status.name : Status → Text
  | healthy => "healthy"
  | degraded => "degraded"
  | unhealthy => "unhealthy"

/-- The name of a status as a heading. -/
def Status.title (s : Status) : Text := s.name.map CodePoint.toAsciiUpper

/-- The mark of a status. -/
def Status.mark : Status → Text
  | healthy => "[OK]"
  | degraded => "[WARN]"
  | unhealthy => "[FAIL]"

/-- What was looked at and how it is. -/
structure Check where
  subject : Text
  status : Status
  details : Table Json
  deriving Repr

/-- The object of a check. -/
def Check.toJson (c : Check) : Json :=
  .obj [("check", .str c.subject), ("status", .str c.status.name), ("details", .obj c.details)]

/-- The details of a chain, with what was found. -/
def chainDetails (d : ChainDefinition) (found : Text × Json) : Table Json :=
  [("chain_id", .str d.chainId), ("rpc_url", .str d.rpcUrl), found]

section Checks

variable {σ : Type} (settings : Settings) (o : Outside σ)

/-- Looks at a chain. -/
def checkChain (d : ChainDefinition) : Act σ Check := do
  match ← Act.attempt (Readiness.blockHeight o.fetch d.rpcUrl Readiness.requestTimeout) with
  | .ok height =>
    return ⟨"chain:" ++ d.name, if 1 ≤ height then .healthy else .degraded,
      chainDetails d ("block_height", .int height)⟩
  | .error e =>
    if !Readiness.isNotReady e then throw e
    return ⟨"chain:" ++ d.name, .unhealthy, chainDetails d ("error", .str e.message)⟩

/-- Looks at the relayer. -/
def checkRelayer : Act σ Check := do
  let ready ← (Relayer.hermes settings.hermesBinary o.run).isReady
  return ⟨"relayer", if ready then .healthy else .unhealthy,
    [("binary", .str settings.hermesBinary)]⟩

/-- Looks at every chain and at the relayer. -/
def checks : Act σ (List Check) := do
  let chains ← settings.chains.mapM (checkChain o)
  return chains ++ [← checkRelayer settings o]

end Checks

/-- Whether everything is healthy. -/
def allHealthy (cs : List Check) : Bool := cs.all fun c => c.status == .healthy

/-! ### Reports -/

/-- The report as JSON, with the time in whole seconds. -/
def jsonReport (cs : List Check) (time : Int) : Json :=
  .obj [("timestamp", .int time), ("checks", .arr (cs.map Check.toJson)),
    ("overall_status", .str (if allHealthy cs then "healthy" else "degraded"))]

/-- A check in words.  The height in it was read, so it has few enough digits to be written. -/
def Check.lines (c : Check) : List Text :=
  (c.status.mark ++ " " ++ c.subject ++ ": " ++ c.status.title) ::
    c.details.map (fun p => "      " ++ p.1 ++ ": " ++ p.2.display) ++ [text ""]

/-- The report in words. -/
def textReport (cs : List Check) : List Text :=
  [ruler, "IBC Harness Health Check", ruler, ""] ++ cs.flatMap Check.lines ++
    [ruler,
      "Overall Status: " ++
        (if allHealthy cs then text "HEALTHY" else text "DEGRADED/UNHEALTHY")]

/-- The lines of the report in the given format. -/
def report {σ : Type} (o : Outside σ) (cs : List Check) (asJson : Bool) : Act σ (List Text) := do
  if asJson then return [(jsonReport cs ((← o.now).truncate?.getD 0)).indented]
  else return textReport cs

/-- The command with its arguments, of which the first is the format. -/
def run {σ : Type} (settings : Settings) (o : Outside σ) (arguments : List Text) :
    Printing σ Nat := do
  let cs ← outside (checks settings o)
  let asJson := arguments.head? == some (text "json")
  let lines ← outside (report o cs asJson)
  lines.forM printLine
  return if allHealthy cs then 0 else 1

/-- The command with its arguments. -/
def command {σ : Type} (settings : Settings) (o : Outside σ) (arguments : List Text) :
    Act (Site σ) (Text × Exit) :=
  finish (run settings o arguments)

end Health

end CrossChain
