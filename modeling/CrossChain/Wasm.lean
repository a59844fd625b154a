import CrossChain.Files.Tree

/-!
# Contract files

Compiled contracts are files named `andromeda_<name>@<version>.wasm`.  A directory of them is gone
through in the order of the file names.
-/

namespace CrossChain

namespace Wasm

/-- The ending of a contract file. -/
def ending : Text := ".wasm"

/-- The contracts of the operating system, the kernel first. -/
def systemNames : List Text := ["kernel", "vfs", "economics", "adodb"]

/-- The name of the contract in a file: what stands before the first `@`, without the family. -/
def nameOf (file : Path) : Text := Text.without "andromeda_" (Text.before 64 file.name)

/-- The version of the contract in a file: what stands after the last `@`, without the ending. -/
def versionOf (file : Path) : Text := Text.without ending (Text.afterLast 64 file.name)

/-- The contract files of a directory in order. -/
def files (t : FileTree) (directory : Path) : Except Failure (List Path) := do
  let names := (← t.names directory).filter ending.isSuffixOf
  return (names.mergeSort Text.le).map fun name => ⟨directory.root, directory.parts ++ [name]⟩

/-- The first file of the contract with a name. -/
def find (t : FileTree) (directory : Path) (name : Text) : Except Failure Path := do
  match (← files t directory).find? fun file => nameOf file == name with
  | some file => return file
  | none => throw (.file (.noWasmFile name directory.toText))

/-- The names of the contracts in a directory, but those excluded. -/
def namesBut (t : FileTree) (directory : Path) (excluded : List Text) :
    Except Failure (List Text) := do
  return ((← files t directory).map nameOf).filter fun name => !excluded.contains name

/-- The names of the applications in a directory: all contracts but those of the system. -/
def applicationNames (t : FileTree) (directory : Path) : Except Failure (List Text) :=
  namesBut t directory systemNames

/-- The files of the contracts with the given names. -/
def select (t : FileTree) (directory : Path) (names : List Text) :
    Except Failure (Table Path) := do
  return Table.ofPairs (← names.mapM fun name => return (name, ← find t directory name))

end Wasm

end CrossChain
