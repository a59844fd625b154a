import CrossChain.Outcome
import CrossChain.Proofs.Failing
import CrossChain.Proofs.Outcome.Acknowledgement

/-!
# How checks of outcomes fail

A check is to fail with a mismatch or with a violation only.  It does so exactly as long as it
reaches no acknowledgement that exceeds a limit of the JSON reader, and has to show no count that
has too many digits; and reading the value of a good acknowledgement does so only if, besides, its
result is a text that spells a value in base64 (`failsOnly_verdicts_iff`).
-/

namespace CrossChain

/-! ## Verdicts -/

/-- The failures with which a check of an outcome is to fail. -/
def Failure.IsVerdict : Failure → Prop
  | .differs _ => True
  | .violation _ => True
  | _ => False

/-! ## Acknowledgements -/

namespace AckBody

theorem not_isVerdict_of_isLimit {e : Failure} (h : IsLimit e) : ¬ e.IsVerdict := by
  cases e with
  | value fault => exact id
  | tooDeep container => exact id
  | _ => exact h.elim

/-- Reading an acknowledgement fails otherwise exactly where it exceeds a limit. -/
theorem failsOnly_decode [Json.Limits] (ack : AckBody) :
    FailsOnly Failure.IsVerdict ack.decode ↔ ¬ ack.Exceeds := by
  have hdecodes := decodes ack
  generalize ack.decode = r at hdecodes
  cases hdecodes with
  | said within => exact ⟨fun _ => within, fun _ => failsOnly_ok _⟩
  | violation within => exact ⟨fun _ => within, fun _ => failsOnly_error.2 trivial⟩
  | limit exceeds limit =>
    rw [failsOnly_error]
    exact ⟨fun h => absurd h (not_isVerdict_of_isLimit limit), fun h => absurd exceeds h⟩

/-- An acknowledgement within the limits that carries a value under the first of two names. -/
def Passes [Json.Limits] (ack : AckBody) (key other : Text) : Prop :=
  ¬ ack.Exceeds ∧ ∃ v, ack.Carries key other v

theorem passes_iff [Json.Limits] {ack : AckBody} {good : Bool} :
    ack.Passes (member good) (member !good) ↔ ∃ v, ack.decode = .ok ⟨good, v⟩ := by
  constructor
  · exact fun ⟨within, v, h⟩ => ⟨v, h.decode_eq within⟩
  · rintro ⟨v, h⟩
    have within := (failsOnly_decode ack).1 (by rw [h]; exact failsOnly_ok _)
    exact ⟨within, v, (decode_ok_iff within good v).1 h⟩

end AckBody

namespace Ack

variable [Json.Limits]

/-- Among the acknowledgements one exceeds a limit, and all before it carry a value under the first
of two names. -/
def ReachesLimit (key other : Text) (acks : List Ack) : Prop :=
  ∃ before ack after, acks = before ++ ack :: after ∧
    (∀ a ∈ before, a.body.Passes key other) ∧ ack.body.Exceeds

open AckBody (member)

/-- The check that an acknowledgement is good, or that it is not; `mismatch` is what there is to say
if it is the other way. -/
def checkIs (good : Bool) (mismatch : Json → Mismatch) (ack : Ack) : Except Failure Unit := do
  let said ← ack.body.decode
  if said.ok != good then throw (.differs (mismatch said.payload))

theorem checkIs_ok_iff {good : Bool} {mismatch : Json → Mismatch} {ack : Ack} :
    checkIs good mismatch ack = .ok () ↔ ack.body.Passes (member good) (member !good) := by
  rw [AckBody.passes_iff, checkIs]
  cases ack.body.decode with
  | error e => exact ⟨nofun, nofun⟩
  | ok said =>
    obtain ⟨ok, v⟩ := said
    by_cases hgood : ok = good
    · subst hgood
      simp only [bind, Except.bind, bne_self_eq_false]
      exact ⟨fun _ => ⟨v, rfl⟩, fun _ => rfl⟩
    · have hne : (ok != good) = true := bne_iff_ne.2 hgood
      simp only [bind, Except.bind, hne, if_true]
      refine ⟨nofun, ?_⟩
      rintro ⟨w, h⟩
      cases h
      exact absurd rfl hgood

theorem failsOnly_checkIs {good : Bool} {mismatch : Json → Mismatch} {ack : Ack} :
    FailsOnly Failure.IsVerdict (checkIs good mismatch ack) ↔ ¬ ack.body.Exceeds := by
  rw [checkIs, failsOnly_bind, AckBody.failsOnly_decode]
  refine ⟨And.left, fun h => ⟨h, fun said _ => ?_⟩⟩
  split
  · exact failsOnly_error.2 trivial
  · exact failsOnly_ok ()

/-- A check of every acknowledgement fails otherwise where it reaches a limit. -/
theorem failsOnly_forM_checkIs (good : Bool) (mismatch : Json → Mismatch) (acks : List Ack) :
    FailsOnly Failure.IsVerdict (acks.forM (checkIs good mismatch)) ↔
      ¬ ReachesLimit (member good) (member !good) acks := by
  rw [failsOnly_forM]
  constructor
  · rintro h ⟨before, ack, after, hsplit, hbefore, hexceeds⟩
    have hack := h before ack after hsplit fun a ha => checkIs_ok_iff.2 (hbefore a ha)
    exact failsOnly_checkIs.1 hack hexceeds
  · intro h before ack after hsplit hbefore
    refine failsOnly_checkIs.2 fun hexceeds => h ⟨before, ack, after, hsplit, ?_, hexceeds⟩
    exact fun a ha => checkIs_ok_iff.1 (hbefore a ha)

theorem checkResults_eq (acks : List Ack) :
    checkResults acks = acks.forM (checkIs true .errorInAck) := by
  unfold checkResults
  congr 1
  funext ack
  simp only [checkIs, Bool.bne_true]
  rfl

theorem checkErrors_eq (acks : List Ack) :
    checkErrors acks = acks.forM (checkIs false .resultInAck) := by
  unfold checkErrors
  congr 1
  funext ack
  simp only [checkIs, Bool.bne_false]
  rfl

theorem failsOnly_checkResults (acks : List Ack) :
    FailsOnly Failure.IsVerdict (checkResults acks) ↔ ¬ ReachesLimit "result" "error" acks := by
  rw [checkResults_eq]
  exact failsOnly_forM_checkIs true _ acks

theorem failsOnly_checkErrors (acks : List Ack) :
    FailsOnly Failure.IsVerdict (checkErrors acks) ↔ ¬ ReachesLimit "error" "result" acks := by
  rw [checkErrors_eq]
  exact failsOnly_forM_checkIs false _ acks

end Ack

/-! ## Counts -/

namespace RelayInfo

variable [Json.Limits] (info : RelayInfo) (count : Int) (success : Bool) (side : Side)

/-- As many packets left a side as counted, and as many acknowledgements were written across. -/
def Counted : Prop :=
  (info.sentFrom side).1 = count ∧ ((info.sentFrom side).2.length : Int) = count

/-- A message can show what was counted and how many packets there were. -/
def Showable : Prop := Json.Short count ∧ Json.Short (info.sentFrom side).1

/-- With as many packets and acknowledgements as counted, every acknowledgement is checked. -/
theorem check_of_counted (h : info.Counted count side) :
    info.check count success side =
      if success then Ack.checkResults (info.sentFrom side).2
      else Ack.checkErrors (info.sentFrom side).2 := by
  simp only [check, h.1, h.2, bne_self_eq_false, Bool.false_eq_true, if_false]

/-- What differs of the counts, where they are not as expected.  It can be shown just if the counts
can. -/
theorem check_of_not_counted (h : ¬ info.Counted count side) :
    ∃ m : Mismatch, info.check count success side = .error (.mismatch m) ∧
      (m.isWritable = true ↔ info.Showable count side) := by
  rw [check]
  by_cases hpackets : (info.sentFrom side).1 = count
  · have hne : (((info.sentFrom side).2.length : Int) != count) = true :=
      bne_iff_ne.2 fun hacks => h ⟨hpackets, hacks⟩
    simp only [hpackets, bne_self_eq_false, Bool.false_eq_true, if_false, hne, if_true]
    refine ⟨_, rfl, ?_⟩
    rw [Mismatch.isWritable, decide_eq_true_eq, Showable, hpackets, and_self_iff]
  · have hne : ((info.sentFrom side).1 != count) = true := bne_iff_ne.2 hpackets
    simp only [hne, if_true]
    refine ⟨_, rfl, ?_⟩
    rw [Mismatch.isWritable, Bool.and_eq_true, decide_eq_true_eq, decide_eq_true_eq, Showable]

theorem check_of_showable (h : ¬ info.Counted count side) (hshow : info.Showable count side) :
    ∃ m, info.check count success side = .error (.differs m) := by
  obtain ⟨m, hm, hwritable⟩ := check_of_not_counted info count success side h
  exact ⟨m, by rw [hm, Failure.mismatch, hwritable.2 hshow]; rfl⟩

theorem check_of_not_showable (h : ¬ info.Counted count side)
    (hshow : ¬ info.Showable count side) :
    info.check count success side = .error (.value .unwritable) := by
  obtain ⟨m, hm, hwritable⟩ := check_of_not_counted info count success side h
  rw [hm, Failure.mismatch, Failure.ifWritable, if_neg (mt hwritable.1 hshow)]

theorem failsOnly_check :
    FailsOnly Failure.IsVerdict (info.check count success side) ↔
      ¬ ((info.sentFrom side).1 = count ∧ ((info.sentFrom side).2.length : Int) = count ∧
        if success then Ack.ReachesLimit "result" "error" (info.sentFrom side).2
        else Ack.ReachesLimit "error" "result" (info.sentFrom side).2) ∧
      (info.Counted count side ∨ info.Showable count side) := by
  by_cases hcounted : info.Counted count side
  · rw [check_of_counted info count success side hcounted, ← and_assoc, not_and,
      and_iff_left (Or.inl hcounted)]
    refine Iff.trans ?_ (forall_prop_of_true hcounted).symm
    cases success with
    | true => exact Ack.failsOnly_checkResults _
    | false => exact Ack.failsOnly_checkErrors _
  · rw [or_iff_right hcounted, and_iff_right fun h => hcounted ⟨h.1, h.2.1⟩]
    by_cases hshow : info.Showable count side
    · obtain ⟨m, hm⟩ := check_of_showable info count success side hcounted hshow
      rw [hm]
      exact iff_of_true (failsOnly_error.2 trivial) hshow
    · rw [check_of_not_showable info count success side hcounted hshow]
      exact iff_of_false failsOnly_error.1 hshow

end RelayInfo

/-! ## Values in base64 -/

namespace BinaryBody

variable [Json.Limits]

/-- The text is ASCII and holds, in base64, the UTF-8 of a JSON text that spells the value. -/
def Holds (s : Text) (v : Json) : Prop :=
  (∀ c ∈ s, c.isAscii = true) ∧ ∃ bytes t, Base64.decode s = .ok bytes ∧
    Utf8.encode t = .ok bytes ∧ ¬ Json.ExceedsLimit t ∧ Json.Spelled t v

theorem decode_ok_of_holds {s : Text} {v : Json} (h : Holds s v) : decode s = .ok v := by
  obtain ⟨hascii, bytes, t, hbytes, ht, hwithin, hv⟩ := h
  have hall : s.all CodePoint.isAscii = true := List.all_eq_true.2 hascii
  rw [decode, hbytes]
  simp only [hall, Except.mapError, bind, Except.bind, Text.ofUtf8, Utf8.decode_eq_ok.2 ht,
    Json.parse, Json.read_of_spelled hv hwithin]
  rfl

/-- No fault of a binary body is a verdict on an outcome. -/
theorem failsOnly_decode (s : Text) : FailsOnly Failure.IsVerdict (decode s) ↔ ∃ v, Holds s v := by
  constructor
  · intro h
    rw [decode] at h
    by_cases hall : s.all CodePoint.isAscii = true
    · simp only [hall, Bool.not_true, Bool.false_eq_true, if_false] at h
      obtain ⟨hbase64, h⟩ := failsOnly_bind.1 h
      cases hbytes : Base64.decode s with
      | error f =>
        rw [hbytes] at hbase64
        exact (failsOnly_error.1 hbase64).elim
      | ok bytes =>
        obtain ⟨hutf8, hjson⟩ := failsOnly_bind.1 (h bytes (by rw [hbytes]; rfl))
        cases ht : Utf8.decode bytes with
        | error f =>
          rw [Text.ofUtf8, ht] at hutf8
          exact (failsOnly_error.1 hutf8).elim
        | ok t =>
          have hparse := hjson t (by rw [Text.ofUtf8, ht]; rfl)
          rw [Json.parse] at hparse
          have hread := Json.reads t
          generalize Json.read t = r at hread hparse
          cases hread with
          | fault => exact (failsOnly_error.1 hparse).elim
          | @limit e _ limit =>
            cases e with
            | fault f => exact limit.elim
            | tooLong digits => exact (failsOnly_error.1 hparse).elim
            | tooDeep container => exact (failsOnly_error.1 hparse).elim
          | @value v within spelled =>
            exact ⟨v, List.all_eq_true.1 hall, bytes, t, hbytes, Utf8.decode_eq_ok.1 ht, within,
              spelled⟩
    · simp only [hall, Bool.not_false, if_true] at h
      exact (failsOnly_error.1 h).elim
  · rintro ⟨v, h⟩
    rw [decode_ok_of_holds h]
    exact failsOnly_ok v

end BinaryBody

theorem AckBody.failsOnly_successValue [Json.Limits] (ack : AckBody) :
    FailsOnly Failure.IsVerdict ack.successValue ↔ ¬ ack.Exceeds ∧
      ∀ payload, ack.Carries "result" "error" payload →
        ∃ s v, payload = .str s ∧ BinaryBody.Holds s v := by
  rw [successValue, failsOnly_bind, failsOnly_decode]
  refine and_congr_right fun within => ?_
  constructor
  · intro h payload hcarries
    have hpayload := h _ ((decode_ok_iff within true payload).2 hcarries)
    cases payload with
    | str s =>
      obtain ⟨v, hv⟩ := (BinaryBody.failsOnly_decode s).1 hpayload
      exact ⟨s, v, rfl, hv⟩
    | _ => exact (failsOnly_error.1 hpayload).elim
  · rintro h ⟨good, payload⟩ hdecode
    cases good with
    | false => exact failsOnly_error.2 trivial
    | true =>
      obtain ⟨s, v, rfl, hv⟩ := h payload ((decode_ok_iff within true payload).1 hdecode)
      exact (BinaryBody.failsOnly_decode s).2 ⟨v, hv⟩

/-! ## All checks -/

/-- A check fails with nothing but verdicts exactly as long as it reaches no acknowledgement that
exceeds a limit and no count that differs but cannot be shown, and the value of a good
acknowledgement is read so only if its result holds one. -/
theorem failsOnly_verdicts_iff [Json.Limits] (acks : List Ack) (info : RelayInfo) (count : Int)
    (success : Bool) (side : Side) (ack : AckBody) :
    (FailsOnly Failure.IsVerdict (Ack.checkResults acks) ↔
        ¬ Ack.ReachesLimit "result" "error" acks) ∧
      (FailsOnly Failure.IsVerdict (Ack.checkErrors acks) ↔
        ¬ Ack.ReachesLimit "error" "result" acks) ∧
      (FailsOnly Failure.IsVerdict (info.check count success side) ↔
        ¬ ((info.sentFrom side).1 = count ∧ ((info.sentFrom side).2.length : Int) = count ∧
          if success then Ack.ReachesLimit "result" "error" (info.sentFrom side).2
          else Ack.ReachesLimit "error" "result" (info.sentFrom side).2) ∧
        (info.Counted count side ∨ info.Showable count side)) ∧
      (FailsOnly Failure.IsVerdict ack.successValue ↔ ¬ ack.Exceeds ∧
        ∀ payload, ack.Carries "result" "error" payload →
          ∃ s v, payload = .str s ∧ BinaryBody.Holds s v) :=
  ⟨Ack.failsOnly_checkResults acks, Ack.failsOnly_checkErrors acks,
    info.failsOnly_check count success side, ack.failsOnly_successValue⟩

/-- A result that is base64 of something other than JSON is no violation. -/
theorem not_failsOnly_verdicts :
    ¬ FailsOnly Failure.IsVerdict (AckBody.text "\x7b\"result\":\"AQ==\"\x7d").successValue := by
  intro h
  have hfails : (AckBody.text "\x7b\"result\":\"AQ==\"\x7d").successValue =
      .error (.value (.json ⟨.value, 0, 1, 1⟩)) := by cbv
  exact h _ hfails

end CrossChain
