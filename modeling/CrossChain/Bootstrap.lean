import CrossChain.Cache
import CrossChain.Client
import CrossChain.Site
import CrossChain.Wasm

/-!
# Bootstrap

Installs the operating system on a chain: all code is stored, the kernel is made first and every
sibling against it, and the kernel is told each sibling's address.  The addresses are kept in the
cache, and an install that the cache already has in full is not repeated.  Applications are stored
and published in the registry afterwards.
-/

namespace CrossChain

variable [Json.Limits]

namespace Bootstrap

/-! ### The operating system -/

section Install

variable {σ : Type} (client : ChainClient σ)

/-- Stores the code of every contract and gives the code ids. -/
def uploadAll (contracts : Table Path) : Act σ (Table Int) :=
  contracts.mapM fun (name, wasm) => return (name, ← client.upload wasm name)

/-- Makes a sibling of every code but the kernel's. -/
def makeSiblings (kernel : Text) (siblings : Table Int) : Act σ (Table Text) :=
  siblings.mapM fun (name, code) =>
    return (name, ← client.instantiate (.int code)
      (Instantiation.sibling (.str kernel) none).toJson name)

/-- Tells the kernel the address of every sibling. -/
def register (kernel : Text) (siblings : Table Text) : Act σ Unit :=
  siblings.forM fun (name, address) =>
    discard (client.execute (.str kernel)
      (ContractMessage.upsertKeyAddress name (.str address)).toJson [])

/-- Installs contracts, the kernel among them, and gives the address of each, the kernel first. -/
def install (chainName : Text) (contracts : Table Path) : Act σ (Table Json) := do
  let codes ← uploadAll client contracts
  match Table.get? kernelName codes with
  | none => throw (.value .kernelNotInSet)
  | some code =>
    let kernel ← client.instantiate (.int code) (Instantiation.kernel chainName none).toJson
      kernelName
    let siblings ← makeSiblings client kernel (codes.filter fun p => p.1 != kernelName)
    register client kernel siblings
    return (kernelName, .str kernel) :: siblings.map fun p => (p.1, .str p.2)

end Install

/-- The addresses that the cache has for every one of the names, if it has them all. -/
def cachedAddresses? (directory : Path) (chainId : Text) (names : List Text) :
    Act FileTree (Option (Table Json)) := do
  let cache ← Cache.load directory chainId
  if !Cache.isComplete cache names then return none
  let table := (cache.map Cache.contracts).getD []
  return some (names.filterMap fun name => (Table.get? name table).map (name, ·))

section Setup

variable {σ : Type} (client : ChainClient σ)

/-- Installs contracts and keeps their addresses in the cache, if there is one.  A refusal of the
chain abandons the install, and the cache stays as it was. -/
def deploy (chainName : Text) (contracts : Table Path) (directory : Option Path) :
    Act (Site σ) (Table Json) := do
  match ← Act.attempt (Site.onOutside (install client chainName contracts)) with
  | .error (.contract target detail) =>
    throw (.bootstrap client.chainId (.contract target detail))
  | .error e => throw e
  | .ok addresses =>
    if let some d := directory then
      let _ ← Cache.save d client.chainId { contracts := addresses, client := .str client.sender }
    return addresses

/-- The addresses of contracts on a chain, the kernel among them: from the cache, if it has them all
and may be read, and else by installing them. -/
def setUp (chainName : Text) (contracts : Table Path) (directory : Option Path)
    (useCache : Bool := true) : Act (Site σ) (Table Json) := do
  if (Table.get? kernelName contracts).isNone then throw (.value .kernelNotInSet)
  let cached ← match directory, useCache with
    | some d, true => liftM (cachedAddresses? d client.chainId (contracts.map (·.1)))
    | _, _ => pure none
  match cached with
  | some addresses => return addresses
  | none => deploy client chainName contracts directory

/-! ### Applications -/

/-- Stores a file as the code of an application and publishes it in the registry. -/
def publishFile (registry : Contract) (name : Text) (file : Path) : Act σ Int := do
  let code ← client.upload file name
  let _ ← registry.execute client (.publish code name (Wasm.versionOf file)) []
  return code

/-- Publishes an application of a directory. -/
def publish (registry : Contract) (directory : Path) (name : Text) : Act (Site σ) Int := do
  let file ← Site.ofFiles fun t => Wasm.find t directory name
  Site.onOutside (publishFile client registry name file)

/-- Adds code ids to the cache of a chain. -/
def remember (directory : Path) (codes : Table Int) : Act FileTree Unit := do
  let cache := (← Cache.load directory client.chainId).getD { client := .str client.sender }
  let _ ← Cache.save directory client.chainId
    { cache with codeIds := Table.insertAll cache.codeIds (codes.map fun p => (p.1, .int p.2)) }

/-- Publishes every application of a directory and gives the code ids. -/
def publishAll (registry : Contract) (directory : Path) (cacheDirectory : Option Path) :
    Act (Site σ) (Table Int) := do
  let names ← Site.ofFiles fun t => Wasm.applicationNames t directory
  let codes ← names.mapM fun name => return (name, ← publish client registry directory name)
  let codes := Table.ofPairs codes
  if let some d := cacheDirectory then remember client d codes
  return codes

end Setup

end Bootstrap

/-! ### Checks -/

namespace Endpoint

variable {σ : Type}

/-- Checks that the kernel knows every other contract at its address. -/
def checkAddresses (e : Endpoint σ) : Act σ Unit := do
  let kernel ← Act.ofExcept e.kernel
  e.contracts.forM fun (name, contract) => do
    if name != kernelName then
      let registered ← kernel.query e.client (.keyAddress name)
      if !registered.equals contract.address then
        throw (.mismatch (.keyAddress e.name name registered contract.address))

/-- The names of the contracts of a chain in order. -/
def sortedNames (e : Endpoint σ) : List Text := (e.contracts.map (·.1)).mergeSort Text.le

/-- Checks that two chains have contracts of the same names, each known to its kernel. -/
def checkConsistency (a b : Endpoint σ) : Act σ Unit := do
  if a.sortedNames != b.sortedNames then
    throw (.mismatch (.contractSets a.sortedNames b.sortedNames))
  a.checkAddresses
  b.checkAddresses

/-- The code id that the registry has for a name. -/
def codeId (e : Endpoint σ) (name : Text) : Act σ Json := do
  (← Act.ofExcept e.registry).query e.client (.codeId name)

/-- Checks that two registries have the same code id for every name. -/
def checkCodeIds (a b : Endpoint σ) (names : List Text) : Act σ Unit :=
  names.forM fun name => do
    let x ← a.codeId name
    let y ← b.codeId name
    if !x.equals y then throw (.mismatch (.codeIds name x y))

end Endpoint

end CrossChain
