import CrossChain.Files.Name

/-!
# Places

A place is where a path leads: names that go down from the working directory, from a directory some
levels above it, or from the root.  Going up from the working directory leads out of it; going up
from the root leads nowhere else.
-/

namespace CrossChain

/-- The directory from which a place is reached by going down. -/
inductive Origin
  | above (levels : Nat)
  | root
  deriving DecidableEq, Repr

/-- A place among the files. -/
structure Place where
  origin : Origin
  names : List FileName
  deriving DecidableEq, Repr

namespace Place

/-- The working directory. -/
def here : Place := ⟨.above 0, []⟩

/-- The root. -/
def root : Place := ⟨.root, []⟩

/-- The place of a name in the directory at a place. -/
def child (p : Place) (name : FileName) : Place := ⟨p.origin, p.names ++ [name]⟩

/-- The place one level up. -/
def parent (p : Place) : Place :=
  match p.names, p.origin with
  | [], .above levels => ⟨.above (levels + 1), []⟩
  | [], .root => p
  | names, origin => ⟨origin, names.dropLast⟩

/-- Whether the second place is the first one or is reached from it by going down. -/
def reaches (p q : Place) : Bool := p.origin == q.origin && p.names.isPrefixOf q.names

/-- The text of the names that lead to a place. -/
def toText (p : Place) : Text := Text.join "/" (p.names.map FileName.toText)

end Place

end CrossChain
