import CrossChain.Files.Tree
import CrossChain.Json.Entries

/-!
# The deployment cache

What a bootstrap left on a chain is kept in a file of the cache directory, named for the chain id:
the address of every system contract, the code id of every published application, and the account
that deployed them.  A file that is missing or cannot be read as JSON counts as no cache.
-/

namespace CrossChain

variable [Json.Limits]

/-- What is remembered of a chain. -/
structure Cache where
  contracts : Table Json := []
  codeIds : Table Json := []
  client : Json := .str []
  deriving Repr

namespace Cache

/-! ### As values -/

/-- The object of a cache. -/
def toJson (c : Cache) : Json :=
  .obj [("OS", .obj c.contracts), ("ALL_ADO", .obj c.codeIds), ("client", c.client)]

/-- The members of a value that may be an object. -/
def tableOf? : Option Json → Table Json
  | some (.obj ms) => ms
  | _ => []

/-- The cache that members say; a table that is no object is empty, and so is an empty client. -/
def ofMembers (ms : Table Json) : Cache where
  contracts := tableOf? (Table.get? "OS" ms)
  codeIds := tableOf? (Table.get? "ALL_ADO" ms)
  client :=
    match Table.get? "client" ms with
    | some v => if v.isEmpty then .str [] else v
    | none => .str []

/-- The cache that a value says. -/
def ofJson : Json → Except Failure Cache
  | .obj ms => .ok (ofMembers ms)
  | _ => .error .noParts

/-- Whether a cache has an address that is not empty for every name. -/
def isComplete (cache : Option Cache) (names : List Text) : Bool :=
  match cache with
  | none => false
  | some c => names.all fun name =>
    match Table.get? name c.contracts with
    | some address => !address.isEmpty
    | none => false

/-! ### In files -/

/-- The file of a chain id. -/
def path (directory : Path) (chainId : Text) : Path := directory.child (chainId ++ ".cache.json")

/-- A text with every line break of one or two control characters as a line feed. -/
def unifyLineBreaks : Text → Text
  | [] => []
  | [c] => if c = 13 then [10] else [c]
  | c :: d :: rest =>
    if c = 13 ∧ d = 10 then 10 :: unifyLineBreaks rest
    else (if c = 13 then 10 else c) :: unifyLineBreaks (d :: rest)

/-- The cache that the content of a file says.  Content that is no JSON, and JSON that is no object,
is no cache; bytes that are no text are a failure. -/
def ofContent (content : List UInt8) : Except Failure (Option Cache) := do
  match Json.parse (unifyLineBreaks (← Text.ofUtf8 content)) with
  | .ok (.obj ms) => return some (ofMembers ms)
  | .ok _ => return none
  | .error (.value (.json _)) => return none
  | .error e => throw e

/-- The cache of a chain id. -/
def load (directory : Path) (chainId : Text) : Act FileTree (Option Cache) := do
  let t ← get
  let p := path directory chainId
  if (← Act.ofExcept (t.look p)).isNone then return none
  match t.read p with
  | .ok content => Act.ofExcept (ofContent content)
  | .error e => if e.isSystem then return none else throw e

/-- The content of the file of a cache, as far as it can be written. -/
def content (c : Cache) : List UInt8 := c.toJson.started.flatMap Utf8.encodePoint

/-- Whether a cache can be written as a whole. -/
def isWritable (c : Cache) : Bool := c.toJson.isWritable

/-- Writes the cache of a chain id, once it is made, and gives its file.  The file is emptied before
that, so without a cache it stays empty; and a cache that cannot be written as a whole is left there
up to the integer that cannot be written. -/
def saveMade (directory : Path) (chainId : Text) (made : Except Failure Cache) :
    Act FileTree Path := do
  let p := path directory chainId
  FileTree.ensureDirectory p.parent
  FileTree.write p []
  let c ← Act.ofExcept made
  FileTree.write p c.content
  if !c.isWritable then throw (.value .unwritable)
  return p

/-- Writes the cache of a chain id and gives its file. -/
def save (directory : Path) (chainId : Text) (c : Cache) : Act FileTree Path :=
  saveMade directory chainId (.ok c)

/-- Writes the cache of a chain id with tables that are given as values, and gives its file. -/
def saveGiven (directory : Path) (chainId : Text) (contracts codeIds client : Json) :
    Act FileTree Path :=
  saveMade directory chainId
    (return { contracts := ← contracts.toTable, codeIds := ← codeIds.toTable, client })

end Cache

end CrossChain
