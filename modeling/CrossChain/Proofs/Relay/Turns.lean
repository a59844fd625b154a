import CrossChain.Proofs.Log
import CrossChain.Relay.Relayer

/-!
# Turns

A relayer that is watched leaves a turn for every call, with how that ended, and a pause leaves one
for the time it took (`Turn`).  Tries of one call with a pause between any two of them leave their
turns in that order (`turnsOf`).
-/

namespace CrossChain

variable {σ α : Type}

/-- What goes on between a relayer and whoever calls it. -/
inductive Turn
  /-- A call to the relayer. -/
  | asked (call : RelayerCall) (ended : Except Failure call.Answer)
  /-- A pause. -/
  | paused (time : Binary64)

/-- A relayer whose calls are noted. -/
def Relayer.watched (r : Relayer σ) : Relayer (Logged Turn σ) where
  answer call := Logged.noting (.asked call) (r.answer call)

theorem Relayer.notes_watched (r : Relayer σ) (call : RelayerCall) :
    Logged.Notes (Turn.asked call) (r.watched.answer call) :=
  Logged.notes_noting (Turn.asked call) (r.answer call)

/-- A pause that is noted; the world goes on meanwhile. -/
def Turn.pausing (wait : Binary64 → σ → σ) (time : Binary64) : Act (Logged Turn σ) Unit := fun s =>
  .ok () ⟨s.log ++ [.paused time], wait time s.inner⟩

/-- The turns of calls that ended as listed, with a pause between any two of them. -/
def turnsOf (call : RelayerCall) (time : Binary64) (ends : List (Except Failure call.Answer)) :
    List Turn := (ends.map (.asked call)).intersperse (.paused time)

/-- The ends of tries of which all but the last failed by the relayer, for these reasons. -/
def endsOf (failed : List RelayFault) (last : Except Failure α) : List (Except Failure α) :=
  failed.map (fun fault => .error (.relay fault)) ++ [last]

theorem length_endsOf (failed : List RelayFault) (last : Except Failure α) :
    (endsOf failed last).length = failed.length + 1 := by
  rw [endsOf, List.length_append, List.length_map, List.length_singleton]

/-- Without a call there is no turn. -/
theorem log_turnsOf_nil (call : RelayerCall) (time : Binary64) (s : Logged Turn σ) :
    (⟨s.log ++ turnsOf call time [], s.inner⟩ : Logged Turn σ) = s :=
  congrArg (Logged.mk · s.inner) (List.append_nil s.log)

/-- A call that is followed by a pause and by tries, of which there is at least one. -/
theorem turnsOf_cons {call : RelayerCall} (time : Binary64) (ended : Except Failure call.Answer)
    {ends : List (Except Failure call.Answer)} (h : ends ≠ []) :
    turnsOf call time (ended :: ends) =
      [.asked call ended, .paused time] ++ turnsOf call time ends := by
  cases ends with
  | nil => exact absurd rfl h
  | cons next rest => rfl

theorem turnsOf_endsOf_cons {call : RelayerCall} (time : Binary64) (fault : RelayFault)
    (failed : List RelayFault) (last : Except Failure call.Answer) :
    turnsOf call time (endsOf (fault :: failed) last) =
      [.asked call (.error (.relay fault)), .paused time] ++
        turnsOf call time (endsOf failed last) :=
  turnsOf_cons time _ (List.append_ne_nil_of_right_ne_nil _ (List.cons_ne_nil _ _))

end CrossChain
