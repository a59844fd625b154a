import CrossChain.Failure

/-!
# Acts

An act changes a state and ends with a value or a failure; what it changed before a failure stays
changed.  Acts on a part of a state are acts on the whole, a state can carry a log, and a list of
acts can be run to the end whatever fails on the way.
-/

namespace CrossChain

/-- An act on states of type `σ`. -/
abbrev Act (σ α : Type) := EStateM Failure σ α

namespace Act

/-- The state after an act, and how it ended. -/
def outcome {σ α : Type} (x : Act σ α) (s : σ) : Except Failure α × σ :=
  match x s with
  | .ok a t => (.ok a, t)
  | .error e t => (.error e, t)

/-- The act that ends as told and changes nothing. -/
def ofExcept {σ α : Type} : Except Failure α → Act σ α
  | .ok a => pure a
  | .error e => throw e

/-- How an act ends, as a value. -/
def attempt {σ α : Type} (x : Act σ α) : Act σ (Except Failure α) := fun s =>
  match x s with
  | .ok a t => .ok (.ok a) t
  | .error e t => .ok (.error e) t

/-- An act on the part of a state that `get` and `set` name. -/
def on {σ τ α : Type} (get : τ → σ) (set : σ → τ → τ) (x : Act σ α) : Act τ α := fun t =>
  match x (get t) with
  | .ok a s => .ok a (set s t)
  | .error e s => .error e (set s t)

/-- Runs every act and gives the values in order; if any failed, the failure of the first of them
comes once all have ended. -/
def awaitAll {σ α : Type} (acts : List (Act σ α)) : Act σ (List α) := do
  let ends ← acts.mapM attempt
  ends.mapM ofExcept

/-- Runs both acts and gives both values; if any failed, the failure of the first of them comes once
both have ended.  The program runs the two in threads of their own; here the second begins when the
first has ended, which is one of the orders that threads allow. -/
def awaitBoth {σ α β : Type} (x : Act σ α) (y : Act σ β) : Act σ (α × β) := do
  let a ← attempt x
  let b ← attempt y
  return (← ofExcept a, ← ofExcept b)

end Act

/-! ### Logs -/

/-- A state with a log of what was done, the earliest first. -/
structure Logged (ε σ : Type) where
  log : List ε
  inner : σ
  deriving Repr

namespace Logged

/-- Adds an entry to the log. -/
def record {ε σ : Type} (e : ε) : Act (Logged ε σ) Unit :=
  modify fun s => { s with log := s.log ++ [e] }

/-- An act on the state without its log. -/
def lift {ε σ α : Type} (x : Act σ α) : Act (Logged ε σ) α :=
  Act.on Logged.inner (fun s t => { t with inner := s }) x

instance {ε σ : Type} : MonadLift (Act σ) (Act (Logged ε σ)) := ⟨lift⟩

end Logged

end CrossChain
