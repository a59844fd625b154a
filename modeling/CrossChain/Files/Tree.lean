import CrossChain.Act
import CrossChain.Files.Path
import CrossChain.Files.Place

/-!
# Files

A tree of directories and files, with the few operations that the library needs: looking, reading,
writing, making directories, listing.  A path leads to a place if everything on the way is a
directory.
-/

namespace CrossChain

/-- What stands at a place. -/
inductive FileEntry
  | file (content : List UInt8)
  | directory
  deriving DecidableEq, Repr

/-- What stands at which places. -/
structure FileTree where
  entries : List (Place × FileEntry) := []
  deriving Repr

namespace FileTree

/-! ### Places -/

/-- The entry of a place in a list of entries. -/
def entryIn (place : Place) : List (Place × FileEntry) → Option FileEntry
  | [] => none
  | (p, e) :: rest => if p = place then some e else entryIn place rest

/-- What stands at a place; the working directory, all above it and the root are always there. -/
def entry? (t : FileTree) (place : Place) : Option FileEntry :=
  if place.names.isEmpty then some .directory else entryIn place t.entries

/-- The tree with an entry at a place. -/
def withEntry (t : FileTree) (place : Place) (e : FileEntry) : FileTree :=
  ⟨t.entries.filter (fun p => p.1 != place) ++ [(place, e)]⟩

/-- The tree without a place and whatever is below it. -/
def without (t : FileTree) (place : Place) : FileTree :=
  ⟨t.entries.filter fun p => !place.reaches p.1⟩

/-- The longest name, in bytes. -/
def maxName : Nat := 255

/-- The longest path, in bytes. -/
def maxPath : Nat := 4095

/-- Goes on from a place by names; `path` is the text to blame. -/
def walk (t : FileTree) (path : Text) (place : Place) : List Text → Except Failure Place
  | [] => .ok place
  | name :: rest =>
    match t.entry? place with
    | none => .error (.file (.notFound path))
    | some (.file _) => .error (.file (.notDirectory path))
    | some .directory =>
      if name = text ".." then walk t path place.parent rest
      else if maxName < (FileName.ofText name).length then .error (.file (.nameTooLong path))
      else walk t path (place.child (FileName.ofText name)) rest

/-- The place that a path leads to.  A path must give bytes, and none of them null. -/
def place (t : FileTree) (p : Path) : Except Failure Place := do
  let path := p.toText
  if let some (start, run) := FileName.fault? path then throw (.value (.surrogates start run))
  if path.contains 0 then throw (.value .nullInPath)
  if maxPath < (FileName.ofText path).length then throw (.file (.nameTooLong path))
  walk t path (if p.root.isEmpty then .here else .root) p.parts

/-! ### Looking -/

/-- What stands where a path leads; a path that leads nowhere or is no path finds nothing. -/
def look (t : FileTree) (p : Path) : Except Failure (Option FileEntry) :=
  match t.place p with
  | .ok place => .ok (t.entry? place)
  | .error (.file (.nameTooLong path)) => .error (.file (.nameTooLong path))
  | .error _ => .ok none

/-- Whether a directory stands where a path leads. -/
def isDirectory (t : FileTree) (p : Path) : Except Failure Bool := do
  return (← t.look p) == some .directory

/-- The names in the directory at a place, as they are shown. -/
def namesIn (t : FileTree) (place : Place) : List Text :=
  t.entries.filterMap fun p =>
    if p.1.parent = place then p.1.names.getLast?.map FileName.toText else none

/-- The names where a path leads, if that is a directory. -/
def names (t : FileTree) (p : Path) : Except Failure (List Text) := do
  if ← t.isDirectory p then return t.namesIn (← t.place p) else return []

/-- The bytes of a file. -/
def read (t : FileTree) (p : Path) : Except Failure (List UInt8) := do
  match t.entry? (← t.place p) with
  | some (.file content) => return content
  | some .directory => throw (.file (.isDirectory p.toText))
  | none => throw (.file (.notFound p.toText))

/-- The files at or below a place, each with the text of the names that lead to it. -/
def filesBelow (t : FileTree) (place : Place) : List (Text × List UInt8) :=
  t.entries.filterMap fun p =>
    match place.reaches p.1, p.2 with
    | true, .file content => some (p.1.toText, content)
    | _, _ => none

/-! ### Changing -/

/-- Writes a file where a path leads, whatever it held before. -/
def write (p : Path) (content : List UInt8) : Act FileTree Unit := do
  let t ← get
  let place ← Act.ofExcept (t.place p)
  if t.entry? place = some .directory then throw (.file (.isDirectory p.toText))
  set (t.withEntry place (.file content))

/-- Makes one directory. -/
def makeDirectory (p : Path) : Act FileTree Unit := do
  let t ← get
  let place ← Act.ofExcept (t.place p)
  if (t.entry? place).isSome then throw (.file (.alreadyExists p.toText))
  set (t.withEntry place .directory)

/-- Makes one directory, unless it is there already. -/
def settleDirectory (p : Path) : Act FileTree Unit := do
  match ← Act.attempt (makeDirectory p) with
  | .ok () => return
  | .error (.file f) => if !(← Act.ofExcept ((← get).isDirectory p)) then throw (.file f)
  | .error e => throw e

/-- Makes a directory with all that is missing above it, going up `depth` levels at most. -/
def makeDirectories : Nat → Path → Act FileTree Unit
  | 0, p => settleDirectory p
  | depth + 1, p => do
    match ← Act.attempt (settleDirectory p) with
    | .error (.file (.notFound _)) =>
      makeDirectories depth p.parent
      settleDirectory p
    | ended => Act.ofExcept ended

/-- Makes a directory with all that is missing above it. -/
def ensureDirectory (p : Path) : Act FileTree Unit := makeDirectories p.parts.length p

end FileTree

end CrossChain
