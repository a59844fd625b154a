import CrossChain.Bootstrap
import CrossChain.Command
import CrossChain.Deploy.Options
import CrossChain.Outside

/-!
# Deployments

The command that installs the operating system on chains one after the other and tells what it did.
A chain that fails is reported, and the next one is tried all the same.
-/

namespace CrossChain

variable [Json.Limits]

namespace Deploy

open Command

/-- The failures that end the deployment of one chain and not the whole command. -/
def isReported (e : Failure) : Bool := e.isDomain || e.isValue || e.isFileMissing

section Chains

variable {σ : Type} (settings : Settings) (o : Outside σ)

/-- Waits for a chain and connects to it, and funds the account if an amount is given. -/
def prepare (d : ChainDefinition) (fund : Text) : Printing σ (ChainClient σ) := do
  let _ ← outside (Readiness.awaitChain o.fetch o.sleep d.rpcUrl
    Settings.pollAttempts Settings.pollInterval)
  let client ← outside (o.connect d settings.harnessMnemonic)
  printLine ("    Sender: " ++ client.sender)
  if !fund.isEmpty then
    let _ ← outside (Faucet.fund o.connect d client.sender fund .null)
    printLine ("    Funded with " ++ fund ++ d.denomFee)
  return client

/-- Installs the system on a chain, or finds it in the cache, and checks it. -/
def install (d : ChainDefinition) (client : ChainClient σ) (fresh : Bool) :
    Printing σ (Endpoint σ) := do
  let contracts ← atSite (Site.ofFiles fun t =>
    Wasm.select t settings.contractsDirectory Wasm.systemNames)
  let addresses ← atSite (Bootstrap.setUp client d.name contracts
    (some settings.cacheDirectory) (!fresh))
  let e : Endpoint σ := { name := d.name, definition := d, client }
  let e := e.withAddresses addresses
  outside e.checkAddresses
  addresses.forM fun (name, address) =>
    printLine ("    " ++ name.padTo 10 ++ " " ++ address.display)
  return e

/-- Publishes the applications on a chain. -/
def publish (e : Endpoint σ) : Printing σ Unit := do
  let registry ← Act.ofExcept e.registry
  let codes ← atSite (Bootstrap.publishAll e.client registry settings.contractsDirectory
    (some settings.cacheDirectory))
  printLine ("    Published " ++ Text.ofNat codes.length ++ " ADOs")
  codes.forM fun (name, code) =>
    printLine ("      " ++ name.padTo 24 ++ " code " ++ Text.ofInt code)

/-- Deploys on the chain of a name. -/
def onChain (options : Options) (name : Text) : Printing σ Unit := do
  let d ← Act.ofExcept (settings.chain name)
  printLine []
  printLine ("[*] " ++ name ++ " (" ++ d.chainId ++ ")")
  let client ← prepare settings o d options.fund
  let e ← install settings d client options.fresh
  if options.publish then publish settings e

/-- Deploys on the chain of a name, and says whether that went well. -/
def attempt (options : Options) (name : Text) : Printing σ Bool := do
  match ← Act.attempt (onChain settings o options name) with
  | .ok () => return true
  | .error e =>
    if !isReported e then throw e
    printLine ("[ERROR] " ++ name ++ ": " ++ e.message)
    return false

/-- Deploys on every chain in turn, and gives the names of those that failed. -/
def onAll (options : Options) : Printing σ (List Text) :=
  options.chains.filterMapM fun name =>
    return if ← attempt settings o options name then none else some name

/-- Runs a deployment and gives the exit status. -/
def run (options : Options) : Printing σ Nat := do
  printLine ruler
  printLine "Andromeda OS Deployment"
  printLine ruler
  let failed ← onAll settings o options
  printLine []
  printLine ruler
  if failed.isEmpty then
    printLine "All chains deployed"
    return 0
  else
    printLine ("Failed: " ++ Text.join ", " failed)
    return 1

end Chains

/-! ### The command -/

/-- What the command says of itself. -/
def helpLines : List Text :=
  ["usage: deploy [-h] [--fresh] [--publish] [--fund FUND] chains [chains ...]",
    "",
    "Deploy the Andromeda OS on local IBC chains",
    "",
    "positional arguments:",
    "  chains       Chain names (osmo-a, osmo-b)",
    "",
    "options:",
    "  -h, --help   show this help message and exit",
    "  --fresh      Ignore and overwrite the cache",
    "  --publish    Upload and publish every ADO afterwards",
    "  --fund FUND  Fund the deployer from the faucet with this amount first"]

/-- The command with its arguments.  Arguments that cannot be understood end it with status 2. -/
def command {σ : Type} (settings : Settings) (o : Outside σ) (arguments : List Text) :
    Act (Site σ) (Text × Exit) :=
  match read arguments with
  | .run options => finish (run settings o options)
  | .help => return (ofLines helpLines, .status 0)
  | .misuse => return ([], .status 2)

end Deploy

end CrossChain
