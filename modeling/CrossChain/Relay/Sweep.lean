import CrossChain.Relay.Relayer

/-!
# Sweeps

A sweep moves whatever waits between two chains.  Accounts race for sequence numbers and chains
drift in height while a sweep runs; such failures pass, and cost one of a budget.  All others cost
two.  A sweep is repeated, after a delay, until it succeeds or the budget is spent.
-/

namespace CrossChain

namespace RelayKind

/-- What a failure of this kind costs. -/
def cost (kind : RelayKind) : Nat := if kind.isTransient then 1 else 2

theorem cost_pos (kind : RelayKind) : 0 < kind.cost := by cases kind <;> decide

end RelayKind

namespace Sweep

/-- The budget of failures, unless another is given. -/
def defaultBudget : Int := 6

/-- The delay after a failure, unless another is given. -/
def defaultDelay : Binary64 := .ofDecimal false 1 0

/-- Repeats a sweep while its failures cost less than what is left; `first` says that none failed
before.  The failure that costs the last of it is the end. -/
def within {σ α : Type} (pause : Act σ Unit) (sweep : Act σ α) (left : Nat) (first : Bool) :
    Act σ (Bool × α) := do
  match ← Act.attempt sweep with
  | .ok info => return (first, info)
  | .error (.relay fault) =>
    if left ≤ fault.kind.cost then throw (.relay fault)
    else
      pause
      within pause sweep (left - fault.kind.cost) false
  | .error e => throw e
termination_by left
decreasing_by
  have := fault.kind.cost_pos
  omega

end Sweep

/-- Moves every packet that waits on either end of a link.  Gives whether the first sweep succeeded,
and what the last sweep moved; earlier ones may have moved more before they failed. -/
def Link.relay {σ : Type} (r : Relayer σ) (sleep : Binary64 → Act σ Unit) (link : Link)
    (budget : Int) (delay : Binary64) : Act σ (Bool × RelayInfo) :=
  Sweep.within (sleep delay) (r.relayAll link) budget.toNat true

end CrossChain
