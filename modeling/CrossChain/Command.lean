import CrossChain.Site

/-!
# Commands

A command works at a site, prints lines, and ends with an exit status or with a failure that nobody
caught.  What it printed before a failure stays printed.
-/

namespace CrossChain

/-- How a command ended: with an exit status, or with a failure that nobody caught. -/
inductive Exit
  | status (code : Nat)
  | uncaught (e : Failure)

namespace Command

/-- An act that works at a site and prints lines. -/
abbrev Printing (σ α : Type) := Act (Logged Text (Site σ)) α

section Printing

variable {σ : Type}

/-- Prints a line. -/
def printLine (line : Text) : Printing σ Unit := Logged.record line

/-- An act at the site, which prints nothing. -/
def atSite {α : Type} (x : Act (Site σ) α) : Printing σ α := Logged.lift x

/-- An act on the outside world, which prints nothing. -/
def outside {α : Type} (x : Act σ α) : Printing σ α := Logged.lift (Site.onOutside x)

/-- The lines as a text, each with its line feed. -/
def ofLines (lines : List Text) : Text := lines.flatMap fun line => line ++ [10]

/-- A line across the page. -/
def ruler : Text := List.replicate 50 61

/-- Runs a command: what it printed, how it ended, and the site afterwards. -/
def finish (command : Printing σ Nat) : Act (Site σ) (Text × Exit) := fun s =>
  match command ⟨[], s⟩ with
  | .ok code s => .ok (ofLines s.log, .status code) s.inner
  | .error e s => .ok (ofLines s.log, .uncaught e) s.inner

end Printing

end Command

end CrossChain
