import CrossChain.Text.Basic

/-!
# Paths

A path is a list of names after an optional root.  Doubled and trailing slashes and single dots are
dropped when a path is read; a double dot is a name like any other.
-/

namespace CrossChain

/-- A path; two leading slashes are a root of their own. -/
structure Path where
  root : Text
  parts : List Text
  deriving DecidableEq, Repr

namespace Path

/-- The root that a text starts with: none, one slash, or exactly two. -/
def rootOf (s : Text) : Text :=
  match (s.takeWhile (· == 47)).length with
  | 0 => []
  | 2 => "//"
  | _ => "/"

/-- Reads a path. -/
def ofText (s : Text) : Path :=
  ⟨rootOf s, (Text.splitAt 47 s).filter fun part => part != [] && part != text "."⟩

/-- The text of a path; the empty path is the current directory. -/
def toText (p : Path) : Text :=
  if p.root.isEmpty && p.parts.isEmpty then "." else p.root ++ Text.join "/" p.parts

/-- The path that a text names from this path on; a text with a root starts anew. -/
def child (p : Path) (s : Text) : Path :=
  let q := ofText s
  if q.root.isEmpty then ⟨p.root, p.parts ++ q.parts⟩ else q

/-- The last name of a path. -/
def name (p : Path) : Text := p.parts.getLast?.getD []

/-- The path without its last name. -/
def parent (p : Path) : Path := ⟨p.root, p.parts.dropLast⟩

end Path

end CrossChain
