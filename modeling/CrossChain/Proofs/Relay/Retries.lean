import CrossChain.Relay.Sweep
import CrossChain.Proofs.Act

/-!
# Repeated sweeps

A sweep that is repeated within a budget fails some times, each time with a failure of the relayer
and a pause after it, before it succeeds (`within_ok`).  Whatever comes of it, nothing but sweeps
and pauses moves the state (`within_within`).
-/

namespace CrossChain

namespace Sweep

variable {σ α : Type} {pause : Act σ Unit} {sweep : Act σ α}

/-- A number of sweeps that all failed by the relayer, with a pause after each. -/
inductive Retries (pause : Act σ Unit) (sweep : Act σ α) : Nat → σ → σ → Prop
  | none (s : σ) : Retries pause sweep 0 s s
  | again {n : Nat} {s u v w : σ} (fault : RelayFault) (fails : sweep s = .error (.relay fault) u)
    (pauses : pause u = .ok () v) (rest : Retries pause sweep n v w) :
    Retries pause sweep (n + 1) s w

theorem within_of_ok {s t : σ} {a : α} (left : Nat) (first : Bool) (h : sweep s = .ok a t) :
    within pause sweep left first s = .ok (first, a) t := by
  rw [within, Act.bind_run_ok (Act.attempt_run_ok h)]
  rfl

theorem within_of_relay {s u : σ} {fault : RelayFault} (left : Nat) (first : Bool)
    (h : sweep s = .error (.relay fault) u) :
    within pause sweep left first s =
      if left ≤ fault.kind.cost then .error (.relay fault) u
      else (pause >>= fun _ =>
        within pause sweep (left - fault.kind.cost) false) u := by
  rw [within, Act.bind_run_ok (Act.attempt_run_error h)]
  by_cases hleft : left ≤ fault.kind.cost
  · simp only [if_pos hleft, Act.throw_run]
  · simp only [if_neg hleft]

theorem within_of_other {s u : σ} {e : Failure} (left : Nat) (first : Bool)
    (h : sweep s = .error e u) (he : ∀ fault, e ≠ .relay fault) :
    within pause sweep left first s = .error e u := by
  rw [within, Act.bind_run_ok (Act.attempt_run_error h)]
  cases e with
  | relay fault => exact absurd rfl (he fault)
  | _ => rfl

/-- Repeated sweeps that end well are some that failed and one that succeeded; the answer says
whether that one was the first. -/
theorem within_ok (left : Nat) {first b : Bool} {s t : σ} {a : α}
    (h : within pause sweep left first s = .ok (b, a) t) :
    ∃ n u, Retries pause sweep n s u ∧ sweep u = .ok a t ∧ b = (first && n == 0) := by
  induction left using Nat.strongRecOn generalizing first s with
  | ind left ih =>
    cases hsweep : sweep s with
    | ok a' u =>
      rw [within_of_ok left first hsweep] at h
      cases h
      exact ⟨0, s, .none s, hsweep, (Bool.and_true b).symm⟩
    | error e u =>
      by_cases he : ∃ fault, e = .relay fault
      · obtain ⟨fault, rfl⟩ := he
        rw [within_of_relay left first hsweep] at h
        split at h
        · cases h
        · obtain ⟨_, v, hpause, hrest⟩ := Act.bind_eq_ok h
          have hcost := fault.kind.cost_pos
          obtain ⟨n, w, hretries, hok, hb⟩ := ih _ (by omega) hrest
          refine ⟨n + 1, w, .again fault hsweep hpause hretries, hok, ?_⟩
          rw [hb, Bool.false_and]
          exact (Bool.and_false first).symm
      · rw [within_of_other left first hsweep fun fault h => he ⟨fault, h⟩] at h
        cases h

section Within

variable {R : σ → σ → Prop} [Std.Refl R] [IsTrans σ R] (hpause : Act.Within R pause)
  (hsweep : Act.Within R sweep)

include hpause hsweep

theorem Retries.related {n : Nat} {s t : σ} (h : Retries pause sweep n s t) : R s t := by
  induction h with
  | none s => exact Std.Refl.refl s
  | again fault fails pauses rest ih =>
    exact IsTrans.trans _ _ _ (IsTrans.trans _ _ _ (hsweep.error fails) (hpause.ok pauses)) ih

/-- Repeated sweeps stay in a relation that the sweep and the pause stay in. -/
theorem within_within (left : Nat) (first : Bool) :
    Act.Within R (within pause sweep left first) := by
  induction left using Nat.strongRecOn generalizing first with
  | ind left ih =>
    rw [within]
    refine hsweep.attempt.bind fun ended => ?_
    cases ended with
    | ok info => exact Act.within_pure _
    | error e =>
      cases e with
      | relay fault =>
        have hcost := fault.kind.cost_pos
        by_cases hleft : left ≤ fault.kind.cost
        · simp only [if_pos hleft]
          exact Act.within_throw _
        · simp only [if_neg hleft]
          exact hpause.bind fun _ => ih _ (by omega) false
      | _ => exact Act.within_throw _

end Within

end Sweep

end CrossChain
