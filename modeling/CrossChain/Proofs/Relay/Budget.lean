import CrossChain.Proofs.Relay.Retries
import CrossChain.Proofs.Relay.Turns
import Mathlib

/-!
# The budget of a relay

A relay sweeps until a sweep does not fail by the relayer, or until the failures have cost the
budget (`Sweep.Stops`).  It pauses between any two sweeps and says how the last one ended.  Whether
it succeeds after some failures is a matter of what these cost together (`Sweep.Failing`), and a
larger budget changes nothing about a success.
-/

namespace CrossChain

/-! ## Costs -/

namespace RelayFault

/-- What these failures cost together. -/
def spent (faults : List RelayFault) : Nat := (faults.map fun fault => fault.kind.cost).sum

@[simp] theorem spent_nil : spent [] = 0 := rfl

@[simp] theorem spent_cons (fault : RelayFault) (faults : List RelayFault) :
    spent (fault :: faults) = fault.kind.cost + spent faults := List.sum_cons

/-- How many of the failures pass by themselves. -/
def transients (faults : List RelayFault) : Nat := faults.countP fun fault => fault.kind.isTransient

/-- How many of the failures do not. -/
def others (faults : List RelayFault) : Nat := faults.countP fun fault => !fault.kind.isTransient

/-- The order of failures makes no difference to what they cost together. -/
theorem spent_eq (faults : List RelayFault) :
    spent faults = transients faults + 2 * others faults := by
  induction faults with
  | nil => rfl
  | cons fault rest ih =>
    rw [spent_cons, ih, RelayKind.cost, transients, transients, others, others, List.countP_cons,
      List.countP_cons]
    cases fault.kind.isTransient <;> simp <;> omega

theorem length_le_spent (faults : List RelayFault) : faults.length ≤ spent faults := by
  induction faults with
  | nil => exact Nat.le_refl 0
  | cons fault rest ih =>
    have hcost := fault.kind.cost_pos
    rw [spent_cons, List.length_cons]
    omega

end RelayFault

namespace Sweep

open RelayFault

/-! ## Where a relay stops -/

section Stops

variable {α : Type}

/-- After failures of the relayer for these reasons, `last` is the end at which a relay stops:
none of the failures before it reached the budget, and it does so if it is a failure of the
relayer. -/
structure Stops (budget : Int) (failed : List RelayFault) (last : Except Failure α) : Prop where
  before : ∀ earlier, earlier <+: failed → earlier ≠ [] → (spent earlier : Int) < budget
  reached : ∀ fault, last = .error (.relay fault) → budget ≤ spent (failed ++ [fault])

theorem stops_at_once {budget : Int} {last : Except Failure α}
    (h : ∀ fault, last = .error (.relay fault) → budget ≤ fault.kind.cost) :
    Stops budget [] last where
  before _ hearlier hne := absurd (List.prefix_nil.1 hearlier) hne
  reached fault hlast := h fault hlast

theorem Stops.cons {budget : Int} {fault : RelayFault} {failed : List RelayFault}
    {last : Except Failure α} (hcost : (fault.kind.cost : Int) < budget)
    (h : Stops (budget - fault.kind.cost) failed last) : Stops budget (fault :: failed) last where
  before
    | [], _, hne => absurd rfl hne
    | m :: earlier, hearlier, _ => by
      obtain ⟨rfl, hrest⟩ := List.cons_prefix_cons.1 hearlier
      rw [spent_cons]
      cases earlier with
      | nil => simpa using hcost
      | cons m' earlier =>
        have hbefore := h.before _ hrest (List.cons_ne_nil m' earlier)
        omega
  reached m hlast := by
    have hreached := h.reached m hlast
    rw [List.cons_append, spent_cons]
    omega

/-- Costs are positive, so that no budget below one makes a difference. -/
theorem Stops.of_toNat {budget : Int} {failed : List RelayFault} {last : Except Failure α}
    (h : Stops budget.toNat failed last) : Stops budget failed last where
  before earlier hearlier hne := by
    have hbefore := h.before earlier hearlier hne
    omega
  reached fault hlast := by
    have hreached := h.reached fault hlast
    omega

/-- A sweep costs one at least, unless it is the last. -/
theorem Stops.length_lt {budget : Int} {failed : List RelayFault} {last : Except Failure α}
    (h : Stops budget failed last) : (failed.length + 1 : Int) ≤ max 1 budget := by
  have hlength := length_le_spent failed
  rcases eq_or_ne failed [] with rfl | hne
  · exact Int.le_max_left 1 budget
  · have hbefore := h.before failed List.prefix_rfl hne
    omega

end Stops

/-! ## The turns of a relay -/

section Turns

variable {σ : Type} (r : Relayer σ) (wait : Binary64 → σ → σ) (call : RelayerCall)
  (time : Binary64)

theorem outcome_within (left : Nat) (first : Bool) (s : Logged Turn σ) :
    ∃ failed last t,
      Act.outcome (within (Turn.pausing wait time) (r.watched.answer call) left first) s =
        (last.map fun a => (first && failed.isEmpty, a),
          ⟨s.log ++ turnsOf call time (endsOf failed last), t⟩) ∧
      Stops left failed last := by
  -- The induction is on what is left of the budget: every sweep that is tried again costs some.
  induction left using Nat.strongRecOn generalizing first s with
  | ind left ih =>
    rcases r.notes_watched call s with ⟨a, u, hrun⟩ | ⟨e, u, hrun⟩
    · refine ⟨[], .ok a, u, ?_, stops_at_once fun _ => nofun⟩
      rw [Act.outcome_ok (within_of_ok left first hrun), List.isEmpty_nil, Bool.and_true]
      rfl
    · by_cases he : ∃ fault, e = .relay fault
      · obtain ⟨fault, rfl⟩ := he
        have hcost := fault.kind.cost_pos
        by_cases hleft : left ≤ fault.kind.cost
        · refine ⟨[], .error (.relay fault), u, Act.outcome_error ?_, stops_at_once ?_⟩
          · rw [within_of_relay left first hrun, if_pos hleft]
            rfl
          · rintro _ ⟨⟩
            omega
        · let paused : Logged Turn σ :=
            ⟨s.log ++ [.asked call (.error (.relay fault))] ++ [.paused time], wait time u⟩
          obtain ⟨failed, last, t, hrest, hstops⟩ :=
            ih (left - fault.kind.cost) (by omega) false paused
          refine ⟨fault :: failed, last, t, ?_, Stops.cons (by omega) ?_⟩
          · have hagain : within (Turn.pausing wait time) (r.watched.answer call) left first s =
                within (Turn.pausing wait time) (r.watched.answer call)
                  (left - fault.kind.cost) false paused := by
              rw [within_of_relay left first hrun, if_neg hleft]
              exact Act.bind_run_ok rfl
            rw [Act.outcome_congr hagain, hrest, turnsOf_endsOf_cons]
            simp only [paused, List.append_assoc, List.cons_append, List.nil_append,
              Bool.false_and, List.isEmpty_cons, Bool.and_false]
          · rwa [Int.ofNat_sub (by omega)] at hstops
      · refine ⟨[], .error e, u, Act.outcome_error ?_, stops_at_once ?_⟩
        · exact within_of_other left first hrun fun fault h => he ⟨fault, h⟩
        · rintro fault ⟨⟩
          exact absurd ⟨fault, rfl⟩ he

end Turns

/-! ## Failures and then a success -/

section Failing

variable {σ α : Type} {pause : Act σ Unit} {sweep : Act σ α}

/-- Sweeps that all failed by the relayer, for these reasons and with a pause after each. -/
inductive Failing (pause : Act σ Unit) (sweep : Act σ α) : List RelayFault → σ → σ → Prop
  | none (s : σ) : Failing pause sweep [] s s
  | again {faults : List RelayFault} {s u v w : σ} (fault : RelayFault)
    (fails : sweep s = .error (.relay fault) u) (pauses : pause u = .ok () v)
    (rest : Failing pause sweep faults v w) : Failing pause sweep (fault :: faults) s w

/-- A sweep that succeeds after others failed is reached just when these left some of the
budget. -/
theorem Failing.within_ok_iff {faults : List RelayFault} {s u t : σ} {a : α}
    (h : Failing pause sweep faults s u) (hok : sweep u = .ok a t) (left : Nat) (first : Bool) :
    (∃ answer v, within pause sweep left first s = .ok answer v) ↔
      faults = [] ∨ spent faults < left := by
  induction h generalizing left first with
  | none s => exact ⟨fun _ => .inl rfl, fun _ => ⟨_, _, within_of_ok left first hok⟩⟩
  | @again faults s u v w fault fails pauses rest ih =>
    rw [within_of_relay left first fails, spent_cons]
    have hcost := fault.kind.cost_pos
    have hlength := length_le_spent faults
    by_cases hleft : left ≤ fault.kind.cost
    · rw [if_pos hleft]
      constructor
      · rintro ⟨_, _, herror⟩
        cases herror
      · rintro (hnil | hspent)
        · cases hnil
        · omega
    · rw [if_neg hleft, Act.bind_run_ok pauses, ih hok]
      constructor
      · rintro (rfl | hspent)
        · exact .inr (by rw [spent_nil]; omega)
        · exact .inr (by omega)
      · rintro (hnil | hspent)
        · cases hnil
        · exact .inr (by omega)

/-- Sweeps that end well within a budget end alike within a larger one. -/
theorem within_mono {left left' : Nat} (hle : left ≤ left') {first : Bool} {s t : σ}
    {answer : Bool × α} (h : within pause sweep left first s = .ok answer t) :
    within pause sweep left' first s = .ok answer t := by
  induction left using Nat.strongRecOn generalizing left' first s with
  | ind left ih =>
    cases hsweep : sweep s with
    | ok a u =>
      rw [within_of_ok left first hsweep] at h
      rw [within_of_ok left' first hsweep, h]
    | error e u =>
      by_cases he : ∃ fault, e = .relay fault
      · obtain ⟨fault, rfl⟩ := he
        have hcost := fault.kind.cost_pos
        rw [within_of_relay left first hsweep] at h
        rw [within_of_relay left' first hsweep]
        split at h
        · cases h
        · next hleft =>
          obtain ⟨_, v, hpause, hrest⟩ := Act.bind_eq_ok h
          rw [if_neg (by omega), Act.bind_run_ok hpause]
          exact ih _ (by omega) (by omega) hrest
      · rw [within_of_other left first hsweep fun fault h => he ⟨fault, h⟩] at h
        cases h

end Failing

end Sweep

/-! ## The law -/

open RelayFault

/-- A relay sweeps until a sweep ends otherwise than by a failure of the relayer, or until the
failures cost the budget, and ends as its last sweep; there are as many sweeps as the budget at
most, but one in any case, and a pause of the delay between any two.  Failures that are followed by
a success are survived just when they cost less than the budget together, in whatever order they
come.  A relay that succeeds does the same with every larger budget. -/
theorem relay_accounts {σ : Type} (r : Relayer σ) (wait : Binary64 → σ → σ)
    (sleep : Binary64 → Act σ Unit) (link : Link) (budget : Int) (delay : Binary64) :
    (∀ s : Logged Turn σ, ∃ failed last t,
      Act.outcome (link.relay r.watched (Turn.pausing wait) budget delay) s =
        (last.map fun info => (failed.isEmpty, info),
          ⟨s.log ++ turnsOf (.relayAll link) delay (endsOf failed last), t⟩) ∧
      Sweep.Stops budget failed last ∧ (failed.length + 1 : Int) ≤ max 1 budget) ∧
    (∀ (faults : List RelayFault) (s u : σ) (info : RelayInfo) (t : σ),
      Sweep.Failing (sleep delay) (r.relayAll link) faults s u →
      r.relayAll link u = .ok info t →
      ((∃ answer v, link.relay r sleep budget delay s = .ok answer v) ↔
        faults = [] ∨ (transients faults + 2 * others faults : Int) < budget)) ∧
    (∀ (budget' : Int) (s t : σ) (answer : Bool × RelayInfo), budget ≤ budget' →
      link.relay r sleep budget delay s = .ok answer t →
      link.relay r sleep budget' delay s = .ok answer t) := by
  refine ⟨fun s => ?_, fun faults s u info t hfailing hok => ?_,
    fun budget' s t answer hle hok => ?_⟩
  · obtain ⟨failed, last, t, hrun, hstops⟩ :=
      Sweep.outcome_within r wait (.relayAll link) delay budget.toNat true s
    exact ⟨failed, last, t, hrun, hstops.of_toNat, hstops.of_toNat.length_lt⟩
  · have hlength := length_le_spent faults
    rw [Link.relay, hfailing.within_ok_iff hok, spent_eq]
    rw [spent_eq] at hlength
    refine or_congr_right' fun hne => ?_
    have hpos := List.length_pos_iff.2 hne
    omega
  · exact Sweep.within_mono (by omega) hok

end CrossChain
