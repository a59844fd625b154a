import CrossChain.Deploy
import CrossChain.Health

/-!
# The command line

`deploy` and `health` with their arguments, under the settings that the environment gives.
-/

namespace CrossChain

/-- The variables that the settings look at. -/
def settingNames : List String :=
  ["IBC_HOST", "HARNESS_MNEMONIC", "RELAYER_MNEMONIC", "HERMES_BIN", "IBC_CACHE_DIR",
    "CONTRACTS_DIR", "OSMO_A_RPC_URL", "OSMO_A_WS_URL", "OSMO_A_REST_URL", "OSMO_B_RPC_URL",
    "OSMO_B_WS_URL", "OSMO_B_REST_URL"]

/-- The command that the first argument names, with the other arguments. -/
def namedCommand (settings : Settings) : List Text → Act (Site Unit) (Text × Exit)
  | [] => return ([], .status 2)
  | name :: arguments =>
    if name = text "deploy" then Deploy.command settings .offline arguments
    else if name = text "health" then Health.command settings .offline arguments
    else return ([], .status 2)

/-- The exit status of a command, and what is said of a failure that nobody caught. -/
def Exit.report : Exit → Nat × Text
  | .status code => (code, [])
  | .uncaught e => (1, e.message ++ [10])

end CrossChain

open CrossChain

/-- Runs a command and prints what it prints. -/
def main (arguments : List String) : IO UInt32 := do
  let values ← settingNames.mapM fun name => return (text name, (← IO.getEnv name).map text)
  let settings := Settings.ofEnvironment fun name => (Table.get? name values).join
  match (Act.outcome (namedCommand settings (arguments.map text)) ⟨{}, ()⟩).1 with
  | .ok (printed, exit) =>
    IO.print (Text.toString printed)
    IO.eprint (Text.toString exit.report.2)
    return UInt32.ofNat exit.report.1
  | .error e =>
    IO.eprintln (Text.toString e.message)
    return 1
