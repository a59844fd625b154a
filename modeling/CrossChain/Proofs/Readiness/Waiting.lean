import CrossChain.Proofs.Log
import CrossChain.Proofs.Readiness.Status
import Mathlib

/-!
# Waiting for a chain

A wait asks for the status of a chain until one tells a positive height, with a pause after every
answer that does not, and gives up after as many of these as there are attempts (`Waits`).  A status
that breaks the look at it ends the wait too.
-/

namespace CrossChain

/-! ## Watched waits -/

/-- What goes on while a chain is waited for. -/
inductive WaitEntry
  /-- A request. -/
  | fetched (url : Text) (timeout : Binary64) (ended : Except Failure HttpAnswer)
  /-- A pause. -/
  | slept (time : Binary64) (ended : Except Failure Unit)

namespace WaitEntry

variable {σ : Type}

/-- Requests that are noted. -/
def fetching (fetch : Text → Binary64 → Act σ HttpAnswer) (url : Text) (timeout : Binary64) :
    Act (Logged WaitEntry σ) HttpAnswer :=
  Logged.noting (.fetched url timeout) (fetch url timeout)

/-- Pauses that are noted. -/
def sleeping (sleep : Binary64 → Act σ Unit) (time : Binary64) : Act (Logged WaitEntry σ) Unit :=
  Logged.noting (.slept time) (sleep time)

/-- An entry is a request. -/
def isFetch : WaitEntry → Bool
  | fetched .. => true
  | slept .. => false

end WaitEntry

namespace Readiness

open WaitEntry (fetching sleeping)

section Waits

variable (rpcUrl : Text) (interval : Binary64)

/-- The entry of a look at a chain. -/
def looked (ended : Except Failure HttpAnswer) : WaitEntry :=
  .fetched (statusUrl rpcUrl) requestTimeout ended

/-- The entries of looks that found a chain not ready, with the pause after each. -/
def rounds (dull : List (Except Failure HttpAnswer)) : List WaitEntry :=
  dull.flatMap fun ended => [looked rpcUrl ended, .slept interval (.ok ())]

/-- The entries of a wait with `left` looks, and how it ends: `gaveUp` is the failure after `left`
looks that found the chain not ready. -/
inductive Waits (gaveUp : Failure) (left : Nat) : List WaitEntry → Except Failure Int → Prop
  | exhausted (dull : List (Except Failure HttpAnswer)) (h : ∀ ended ∈ dull, IsDull ended)
    (hlength : dull.length = left) : Waits gaveUp left (rounds rpcUrl interval dull) (.error gaveUp)
  | ready (dull : List (Except Failure HttpAnswer)) (ended : Except Failure HttpAnswer)
    (height : Int) (h : ∀ ended ∈ dull, IsDull ended) (hlength : dull.length < left)
    (htells : Tells ended height) (hheight : 1 ≤ height) :
    Waits gaveUp left (rounds rpcUrl interval dull ++ [looked rpcUrl ended]) (.ok height)
  | escaped (dull : List (Except Failure HttpAnswer)) (ended : Except Failure HttpAnswer)
    (e : Failure) (h : ∀ ended ∈ dull, IsDull ended) (hlength : dull.length < left)
    (hescapes : Escapes ended e) :
    Waits gaveUp left (rounds rpcUrl interval dull ++ [looked rpcUrl ended]) (.error e)
  | woken (dull : List (Except Failure HttpAnswer)) (ended : Except Failure HttpAnswer)
    (e : Failure) (h : ∀ ended ∈ dull, IsDull ended) (hlength : dull.length < left)
    (hdull : IsDull ended) :
    Waits gaveUp left
      (rounds rpcUrl interval dull ++ [looked rpcUrl ended, .slept interval (.error e)]) (.error e)

end Waits

section Poll

variable {rpcUrl : Text} {interval : Binary64} {gaveUp : Failure} {left : Nat}

theorem Waits.again {ended : Except Failure HttpAnswer} {l : List WaitEntry}
    {r : Except Failure Int} (hended : IsDull ended) (h : Waits rpcUrl interval gaveUp left l r) :
    Waits rpcUrl interval gaveUp (left + 1)
      (looked rpcUrl ended :: .slept interval (.ok ()) :: l) r := by
  have hdull : ∀ {dull : List (Except Failure HttpAnswer)}, (∀ ended ∈ dull, IsDull ended) →
      ∀ x ∈ ended :: dull, IsDull x := fun h => List.forall_mem_cons.2 ⟨hended, h⟩
  cases h with
  | exhausted dull h hlength =>
    exact .exhausted (ended :: dull) (hdull h) (congrArg (· + 1) hlength)
  | ready dull last height h hlength htells hheight =>
    exact .ready (ended :: dull) last height (hdull h) (Nat.succ_lt_succ hlength) htells hheight
  | escaped dull last e h hlength hescapes =>
    exact .escaped (ended :: dull) last e (hdull h) (Nat.succ_lt_succ hlength) hescapes
  | woken dull last e h hlength hlast =>
    exact .woken (ended :: dull) last e (hdull h) (Nat.succ_lt_succ hlength) hlast

theorem countP_rounds (dull : List (Except Failure HttpAnswer)) :
    (rounds rpcUrl interval dull).countP WaitEntry.isFetch = dull.length := by
  induction dull with
  | nil => rfl
  | cons ended dull ih =>
    rw [rounds, List.flatMap_cons, List.countP_append, ← rounds, ih, List.length_cons, Nat.add_comm]
    rfl

theorem Waits.countP_le {l : List WaitEntry} {r : Except Failure Int}
    (h : Waits rpcUrl interval gaveUp left l r) : l.countP WaitEntry.isFetch ≤ left := by
  cases h with
  | exhausted dull h hlength => exact Nat.le_of_eq ((countP_rounds dull).trans hlength)
  | ready dull _ _ _ hlength | escaped dull _ _ _ hlength | woken dull _ _ _ hlength =>
    rw [List.countP_append, countP_rounds]
    exact hlength

/-- Whatever fails but giving up is a status that breaks the look at it, or the pause. -/
theorem Waits.error_cases {l : List WaitEntry} {e : Failure}
    (h : Waits rpcUrl interval gaveUp left l (.error e)) :
    e = gaveUp ∨ (∃ ended, looked rpcUrl ended ∈ l ∧ Escapes ended e) ∨
      .slept interval (.error e) ∈ l := by
  cases h with
  | exhausted => exact .inl rfl
  | escaped dull ended _ _ _ hescapes =>
    exact .inr (.inl ⟨ended, List.mem_append_right _ List.mem_cons_self, hescapes⟩)
  | woken dull ended _ _ _ _ =>
    exact .inr (.inr (List.mem_append_right _ (List.mem_cons_of_mem _ List.mem_cons_self)))

/-- What comes of the looks of a wait. -/
def settled (gaveUp : Failure) : Except Failure (Option Int) → Except Failure Int
  | .ok (some height) => .ok height
  | .ok none => .error gaveUp
  | .error e => .error e

variable {σ : Type} (fetch : Text → Binary64 → Act σ HttpAnswer) (sleep : Binary64 → Act σ Unit)

theorem leaves_blockHeight (rpcUrl : Text) :
    Logged.Leaves
      (fun l r => ∃ ended, l = [looked rpcUrl ended] ∧ r = heightIn ended)
      (blockHeight (fetching fetch) rpcUrl requestTimeout) := by
  refine Logged.Notes.bind (Logged.notes_noting _ _) (fun e => ?_) fun answer => ?_
  · exact ⟨.error e, rfl, rfl⟩
  · exact Logged.leaves_ofExcept ⟨.ok answer, rfl, rfl⟩

theorem look_eq {τ : Type} (fetch : Text → Binary64 → Act τ HttpAnswer) (rpcUrl : Text) :
    look fetch rpcUrl =
      Act.attempt (blockHeight fetch rpcUrl requestTimeout) >>= fun read =>
        Act.ofExcept (seen read) := by
  rw [look]
  refine congrArg _ (funext fun read => ?_)
  cases read with
  | ok height => rfl
  | error e => cases he : isNotReady e <;> simp [seen, he]

theorem leaves_look (rpcUrl : Text) :
    Logged.Leaves (fun l r => ∃ ended, l = [looked rpcUrl ended] ∧ Sees ended r)
      (look (fetching fetch) rpcUrl) := by
  rw [look_eq]
  refine (leaves_blockHeight fetch rpcUrl).attempt.bind ?_ ?_
  · rintro l e ⟨_, -, he⟩
    cases he
  · rintro l _ ⟨_, ⟨ended, rfl, rfl⟩, ⟨⟩⟩
    exact Logged.leaves_ofExcept ⟨ended, rfl, sees ended⟩

theorem leaves_poll (rpcUrl : Text) (interval : Binary64) (gaveUp : Failure) (left : Nat) :
    Logged.Leaves (fun l r => Waits rpcUrl interval gaveUp left l (settled gaveUp r))
      (poll (sleeping sleep interval) (look (fetching fetch) rpcUrl) left) := by
  -- The induction is on how many looks are left.
  induction left with
  | zero => exact Logged.leaves_pure (.exhausted [] nofun rfl)
  | succ left ih =>
    rw [poll]
    refine (leaves_look fetch rpcUrl).bind ?_ ?_
    · rintro l e ⟨ended, rfl, hsees⟩
      cases hsees with
      | escaped _ h => exact .escaped [] ended e nofun (Nat.succ_pos left) h
    · rintro l found ⟨ended, rfl, hsees⟩
      cases hsees with
      | ready height htells hheight =>
        exact Logged.leaves_pure (.ready [] ended height nofun (Nat.succ_pos left) htells hheight)
      | dull hdull =>
        refine (Logged.notes_noting (WaitEntry.slept interval) (sleep interval)).bind ?_ fun _ => ?_
        · exact fun e => .woken [] ended e nofun (Nat.succ_pos left) hdull
        · exact ih.mono fun l r h => h.again hdull

theorem leaves_awaitChain (rpcUrl : Text) (attempts : Int) (interval : Binary64) :
    Logged.Leaves (Waits rpcUrl interval (.chainNotReady rpcUrl attempts) attempts.toNat)
      (awaitChain (fetching fetch) (sleeping sleep) rpcUrl attempts interval) := by
  refine (leaves_poll fetch sleep rpcUrl interval _ attempts.toNat).bind (fun l e h => h)
    fun l found h => ?_
  cases found with
  | some height => exact Logged.leaves_pure (by rwa [List.append_nil])
  | none => exact Logged.leaves_throw (by rwa [List.append_nil])

/-- A wait asks for the status of a chain until one tells a positive height, at most as often as
there are attempts, with a pause after every one that does not.  It fails by giving up, unless an
answer breaks the look at it or a pause fails.  As long as the library fails as it documents, only
what a status itself says breaks the look: a value that is no object where a name is to be looked
up, or a height that is no number or is infinite. -/
theorem awaitChain_waits (rpcUrl : Text) (attempts : Int) (interval : Binary64)
    (s : Logged WaitEntry σ) :
    ∃ l r t,
      (awaitChain (fetching fetch) (sleeping sleep) rpcUrl attempts interval).outcome s =
        (r, ⟨s.log ++ l, t⟩) ∧
      Waits rpcUrl interval (.chainNotReady rpcUrl attempts) attempts.toNat l r ∧
      (l.countP WaitEntry.isFetch : Int) ≤ max 0 attempts ∧
      (∀ e, r = .error e → e = .chainNotReady rpcUrl attempts ∨
        (∃ ended, looked rpcUrl ended ∈ l ∧ Escapes ended e) ∨ .slept interval (.error e) ∈ l) ∧
      ((∀ ended, looked rpcUrl ended ∈ l → AsDocumented ended) → ∀ e, r = .error e →
        e = .chainNotReady rpcUrl attempts ∨
        (∃ answer v, looked rpcUrl (.ok answer) ∈ l ∧ answer.checked = .ok () ∧
          answer.json = .ok v ∧ Breaks v e) ∨
        .slept interval (.error e) ∈ l) := by
  obtain ⟨l, r, t, hrun, hwaits⟩ := leaves_awaitChain fetch sleep rpcUrl attempts interval s
  refine ⟨l, r, t, hrun, hwaits, ?_, ?_, ?_⟩
  · have hle := hwaits.countP_le
    omega
  · rintro e rfl
    exact hwaits.error_cases
  · rintro hdocumented e rfl
    rcases hwaits.error_cases with hgaveUp | ⟨ended, hmem, hescapes⟩ | hslept
    · exact .inl hgaveUp
    · obtain ⟨answer, v, rfl, hchecked, hjson, hv⟩ :=
        hescapes.broken_of_asDocumented (hdocumented ended hmem)
      exact .inr (.inl ⟨answer, v, hmem, hchecked, hjson, hv⟩)
    · exact .inr (.inr hslept)

end Poll

/-- The answer of a node whose status has no result yet. -/
def nullAnswer : HttpAnswer where
  checked := .ok ()
  json := .ok (.obj [("result", .null)])

theorem asDocumented_nullAnswer : AsDocumented (.ok nullAnswer) := .answered nullAnswer nofun nofun

theorem look_nullAnswer (rpcUrl : Text) :
    look (fun _ _ => return nullAnswer) rpcUrl () = .error .wrongKind () := by
  have hread : blockHeight (fun _ _ => return nullAnswer) rpcUrl requestTimeout () =
      .error .wrongKind () := rfl
  rw [look, Act.bind_run_ok (Act.attempt_run_error hread)]
  rfl

/-- A null where an object was to be looked into ends the wait, and not as one that gave up. -/
theorem awaitChain_broken_by_null :
    AsDocumented (.ok nullAnswer) ∧ (awaitChain (fun _ _ => return nullAnswer) (fun _ => return ())
      "http://localhost:26657" 1 Settings.pollInterval).outcome () = (.error .wrongKind, ()) := by
  have hpoll : poll (return ())
      (look (fun _ _ => return nullAnswer) "http://localhost:26657") 1 () =
        .error .wrongKind () := Act.bind_run_error (look_nullAnswer _)
  exact ⟨asDocumented_nullAnswer, Act.outcome_error (Act.bind_run_error hpoll)⟩

end Readiness

end CrossChain
