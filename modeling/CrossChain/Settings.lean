import CrossChain.Decimal.Shortest
import CrossChain.Failure
import CrossChain.Files.Path

/-!
# Settings

The two chains, the accounts and the places a run works with.  Everything has a default for a local
network of two chains, and the environment may replace addresses, accounts and directories.
-/

namespace CrossChain

/-- The account that funds other accounts on a chain. -/
structure Faucet where
  mnemonic : Text
  address : Text
  deriving DecidableEq, Repr

/-- What is known of a chain before anything is asked of it. -/
structure ChainDefinition where
  name : Text
  chainId : Text
  addressPrefix : Text
  denomFee : Text
  denomStaking : Text
  minFee : Text
  rpcUrl : Text
  wsUrl : Text
  restUrl : Text
  faucet : Faucet
  ics20Port : Text := "transfer"
  blockTime : Binary64 := .ofDecimal false 5 0
  deriving DecidableEq, Repr

/-- The numeric part of the least fee: what is left of it without as many code points at the end as
the fee denomination has.  A denomination longer than the fee leaves that many fewer again. -/
def ChainDefinition.gasPrice (d : ChainDefinition) : Except Failure Binary64 :=
  let fee := d.minFee.length
  let denom := d.denomFee.length
  Text.toFloat (d.minFee.take (if denom ≤ fee then fee - denom else 2 * fee - denom))

/-- The settings of a run. -/
structure Settings where
  host : Text
  harnessMnemonic : Text
  relayerMnemonic : Text
  hermesBinary : Text
  cacheDirectory : Path
  contractsDirectory : Path
  chains : List ChainDefinition

namespace Settings

/-! ### Fixed values -/

/-- The channel for plain transfers that both chains start with. -/
def ics20Channel : Text := "channel-0"

/-- The connection that both chains start with. -/
def existingConnection : Text := "connection-0"

/-- The version that kernels agree on for a channel of theirs. -/
def kernelChannelVersion : Text := "andr-kernel-1"

/-- The time between two looks at a chain or the relayer. -/
def pollInterval : Binary64 := .ofDecimal false 1 0

/-- How often a chain or the relayer is looked at. -/
def pollAttempts : Int := 60

/-- How long a transaction may take. -/
def broadcastTimeout : Binary64 := .ofDecimal false 15 0

/-- The mnemonic of the faucet of both chains. -/
def faucetMnemonic : Text :=
  "notice oak worry limit wrap speak medal online prefer cluster roof addict " ++
    "wrist behave treat actual wasp year salad speed social layer crew genius"

/-- The mnemonic of the relayer's account. -/
def defaultRelayerMnemonic : Text :=
  "black frequent sponsor nice claim rally hunt suit parent size stumble expire " ++
    "forest avocado mistake agree trend witness lounge shiver image smoke stool chicken"

/-! ### From the environment -/

/-- A local chain that serves at the given ports unless the environment names other addresses. -/
def localChain (env : Text → Option Text) (host name chainId family rpcPort restPort : Text) :
    ChainDefinition :=
  let address (kind scheme port : Text) :=
    (env (family ++ kind)).getD (scheme ++ "://" ++ host ++ ":" ++ port)
  { name, chainId
    addressPrefix := "osmo"
    denomFee := "uosmo"
    denomStaking := "stake"
    minFee := "0.25uosmo"
    rpcUrl := address "_RPC_URL" "http" rpcPort
    wsUrl := address "_WS_URL" "ws" rpcPort
    restUrl := address "_REST_URL" "http" restPort
    faucet := ⟨faucetMnemonic, "osmo19wpkq20hq9r08qht3qhrvya7fm00cflvrhu6s3"⟩ }

/-- The settings under an environment. -/
def ofEnvironment (env : Text → Option Text) : Settings :=
  let host := (env "IBC_HOST").getD "localhost"
  { host
    harnessMnemonic := (env "HARNESS_MNEMONIC").getD faucetMnemonic
    relayerMnemonic := (env "RELAYER_MNEMONIC").getD defaultRelayerMnemonic
    hermesBinary := (env "HERMES_BIN").getD "hermes"
    cacheDirectory := Path.ofText ((env "IBC_CACHE_DIR").getD ".cache")
    contractsDirectory := Path.ofText ((env "CONTRACTS_DIR").getD "contracts")
    chains :=
      [localChain env host "osmo-a" "localosmosis-1" "OSMO_A" "20121" "20221",
        localChain env host "osmo-b" "localosmosis-2" "OSMO_B" "20122" "20222"] }

/-- The settings where the environment says nothing. -/
def default : Settings := ofEnvironment fun _ => none

/-- The chain of a name. -/
def chain (s : Settings) (name : Text) : Except Failure ChainDefinition :=
  match s.chains.find? fun d => d.name == name with
  | some d => .ok d
  | none => .error (.value (.unknownChain name (s.chains.map (·.name))))

end Settings

end CrossChain
