import CrossChain.Proofs.Outcome.Checks

/-!
# What a check of one direction comes to

A check passes exactly where both counts are as expected and every acknowledgement answers as
expected.  Else a count that differs decides, and with the counts as expected the first
acknowledgement that does not answer so (`RelayInfo.check_exact`).  One that exceeds a limit of the
JSON reader is no violation then, whatever else is wrong with it (`RelayInfo.check_deepAck`).
-/

namespace CrossChain

/-! ## Answers -/

namespace AckBody

variable [Json.Limits]

/-- The acknowledgement is read, as a good one or as a bad one. -/
def Answers (ack : AckBody) (good : Bool) : Prop := ∃ v, ack.decode = .ok ⟨good, v⟩

/-- Within the limits of the reader, what carries neither a result nor an error. -/
def Malformed (ack : AckBody) : Prop :=
  ¬ ack.Exceeds ∧ ∀ v, ¬ ack.Carries "result" "error" v ∧ ¬ ack.Carries "error" "result" v

/-- What a check comes to at an acknowledgement that does not answer as it should. -/
inductive Refused (good : Bool) (ack : AckBody) : Except Failure Unit → Prop
  | wrong {m : Mismatch} (h : ack.Answers !good) : Refused good ack (.error (.differs m))
  | malformed {violation : Violation} (h : ack.Malformed) :
      Refused good ack (.error (.violation violation))
  | limit {e : Failure} (h : ack.Exceeds) (hlimit : IsLimit e) : Refused good ack (.error e)

theorem not_answers_of_answers {ack : AckBody} {good : Bool} (h : ack.Answers !good) :
    ¬ ack.Answers good := by
  rintro ⟨v, hv⟩
  obtain ⟨w, hw⟩ := h
  rw [hv] at hw
  cases good <;> cases hw

end AckBody

namespace Ack

variable [Json.Limits] {good : Bool} {mismatch : Json → Mismatch} {ack : Ack}

theorem checkIs_eq_ok : checkIs good mismatch ack = .ok () ↔ ack.body.Answers good :=
  checkIs_ok_iff.trans AckBody.passes_iff

theorem checkIs_of_answers (mismatch : Json → Mismatch) (h : ack.body.Answers !good) :
    ∃ m, checkIs good mismatch ack = .error (.differs m) := by
  obtain ⟨v, hv⟩ := h
  refine ⟨mismatch v, ?_⟩
  rw [checkIs, hv]
  cases good <;> rfl

/-- Where a check fails, there are three ways for the acknowledgement to be at fault. -/
theorem refused_checkIs (mismatch : Json → Mismatch) (h : ¬ ack.body.Answers good) :
    ∃ e, checkIs good mismatch ack = .error e ∧ ack.body.Refused good (.error e) := by
  have hdecodes := AckBody.decodes ack.body
  cases hdecode : ack.body.decode with
  | ok said =>
    obtain ⟨answer, v⟩ := said
    have hanswer : answer = !good := by
      refine Bool.eq_not.2 fun hgood => h ⟨v, ?_⟩
      rw [hdecode, hgood]
    have hwrong : ack.body.Answers !good := ⟨v, by rw [hdecode, hanswer]⟩
    obtain ⟨m, hm⟩ := checkIs_of_answers mismatch hwrong
    exact ⟨_, hm, .wrong hwrong⟩
  | error e =>
    refine ⟨e, by rw [checkIs, hdecode]; rfl, ?_⟩
    rw [hdecode] at hdecodes
    cases hdecodes with
    | violation within =>
      exact .malformed ⟨within, (AckBody.decode_violation_iff within).1 ⟨_, hdecode⟩⟩
    | limit exceeds limit => exact .limit exceeds limit

end Ack

/-! ## Checks -/

namespace RelayInfo

variable [Json.Limits] {info : RelayInfo} {count : Int} {success : Bool} {side : Side}

theorem check_eq_forM (success : Bool) (h : info.Counted count side) :
    ∃ mismatch, info.check count success side =
      (info.sentFrom side).2.forM (Ack.checkIs success mismatch) := by
  rw [check_of_counted _ _ _ _ h]
  cases success with
  | true => exact ⟨.errorInAck, Ack.checkResults_eq _⟩
  | false => exact ⟨.resultInAck, Ack.checkErrors_eq _⟩

theorem check_eq_ok : info.check count success side = .ok () ↔
    info.Counted count side ∧ ∀ ack ∈ (info.sentFrom side).2, ack.body.Answers success := by
  by_cases hcounted : info.Counted count side
  · obtain ⟨mismatch, hforM⟩ := check_eq_forM success hcounted
    rw [hforM, forM_eq_ok, and_iff_right hcounted]
    exact forall₂_congr fun _ _ => Ack.checkIs_eq_ok
  · obtain ⟨m, hm, -⟩ := check_of_not_counted info count success side hcounted
    rw [hm]
    exact ⟨nofun, fun h => absurd h.1 hcounted⟩

/-- The first acknowledgement that does not answer as it should decides. -/
theorem refused_check (hcounted : info.Counted count side)
    (hbad : ¬ ∀ ack ∈ (info.sentFrom side).2, ack.body.Answers success) :
    ∃ before ack after, (info.sentFrom side).2 = before ++ ack :: after ∧
      (∀ b ∈ before, b.body.Answers success) ∧
        ack.body.Refused success (info.check count success side) := by
  obtain ⟨mismatch, hforM⟩ := check_eq_forM success hcounted
  obtain ⟨before, ack, after, hsplit, hbefore, hack⟩ := exists_split_of_not_forall hbad
  obtain ⟨e, he, hrefused⟩ := Ack.refused_checkIs mismatch hack
  refine ⟨before, ack, after, hsplit, hbefore, ?_⟩
  rw [hforM, hsplit, forM_eq_of_split (fun b hb => Ack.checkIs_eq_ok.2 (hbefore b hb)) he]
  exact hrefused

/-- Among acknowledgements that answer as they should, one that answers the other way fails the
check. -/
theorem check_of_replaced {before after : List Ack} {ack other : Ack} {info' : RelayInfo}
    (hpass : info.check count success side = .ok ())
    (hsplit : (info.sentFrom side).2 = before ++ ack :: after)
    (hpackets : (info'.sentFrom side).1 = (info.sentFrom side).1)
    (hacks : (info'.sentFrom side).2 = before ++ other :: after)
    (hother : other.body.Answers !success) :
    ∃ m, info'.check count success side = .error (.differs m) := by
  obtain ⟨hcounted, hall⟩ := check_eq_ok.1 hpass
  have hcounted' : info'.Counted count side := by
    refine ⟨hpackets.trans hcounted.1, ?_⟩
    rw [← hcounted.2, hacks, hsplit, List.length_append, List.length_append]
    rfl
  obtain ⟨mismatch, hforM⟩ := check_eq_forM success hcounted'
  obtain ⟨m, hm⟩ := Ack.checkIs_of_answers mismatch hother
  have hbefore : ∀ b ∈ before, Ack.checkIs success mismatch b = .ok () := fun b hb =>
    Ack.checkIs_eq_ok.2 (hall b (hsplit ▸ List.mem_append_left _ hb))
  exact ⟨m, by rw [hforM, hacks, forM_eq_of_split hbefore hm]⟩

/-- A check passes exactly if both counts are as expected and every acknowledgement answers as
expected.  If a count differs there is a mismatch, unless the counts have too many digits to be
shown, and else the first acknowledgement that does not answer so decides.  Nothing but the packets
and the acknowledgements of the one direction is looked at; so what has moved cannot pass both for a
success and for a failure, nor pass any more when one acknowledgement is exchanged for one that
answers the other way. -/
theorem check_exact (info : RelayInfo) (count : Int) (success : Bool) (side : Side) :
    (info.check count success side = .ok () ↔
        info.Counted count side ∧ ∀ ack ∈ (info.sentFrom side).2, ack.body.Answers success) ∧
      (¬ info.Counted count side →
        (info.Showable count side →
          ∃ m, info.check count success side = .error (.differs m)) ∧
        (¬ info.Showable count side →
          info.check count success side = .error (.value .unwritable))) ∧
      (info.Counted count side →
        (¬ ∀ ack ∈ (info.sentFrom side).2, ack.body.Answers success) →
          ∃ before ack after, (info.sentFrom side).2 = before ++ ack :: after ∧
            (∀ b ∈ before, b.body.Answers success) ∧
              ack.body.Refused success (info.check count success side)) ∧
      (∀ info' : RelayInfo, info'.sentFrom side = info.sentFrom side →
        info'.check count success side = info.check count success side) ∧
      (0 < count → ¬ (info.check count true side = .ok () ∧
        info.check count false side = .ok ())) ∧
      ∀ (before after : List Ack) (ack other : Ack) (info' : RelayInfo),
        info.check count success side = .ok () →
        (info.sentFrom side).2 = before ++ ack :: after →
        (info'.sentFrom side).1 = (info.sentFrom side).1 →
        (info'.sentFrom side).2 = before ++ other :: after → other.body.Answers (!success) →
          ∃ m, info'.check count success side = .error (.differs m) := by
  refine ⟨check_eq_ok, fun h => ⟨check_of_showable info count success side h,
    check_of_not_showable info count success side h⟩, refused_check, ?_, ?_,
    fun _ _ _ _ _ hpass hsplit hpackets hacks => check_of_replaced hpass hsplit hpackets hacks⟩
  · intro info' hsame
    rw [check, check, hsame]
  · rintro hpositive ⟨htrue, hfalse⟩
    obtain ⟨⟨-, hlength⟩, hgood⟩ := check_eq_ok.1 htrue
    obtain ⟨-, hbad⟩ := check_eq_ok.1 hfalse
    cases hacks : (info.sentFrom side).2 with
    | nil =>
      rw [hacks, List.length_nil] at hlength
      omega
    | cons ack acks =>
      have hmem : ack ∈ (info.sentFrom side).2 := hacks ▸ List.mem_cons_self
      exact AckBody.not_answers_of_answers (hbad ack hmem) (hgood ack hmem)

end RelayInfo

/-! ## Acknowledgements nested too deep -/

theorem Json.exceeds_replicate (room : Nat) {n : Nat} (h : room < n) :
    Exceeds .value room (List.replicate n 91) := by
  induction room generalizing n with
  | zero =>
    obtain ⟨n, rfl⟩ := Nat.exists_eq_add_one_of_ne_zero h.ne'
    exact .array
  | succ room ih =>
    obtain ⟨n, rfl⟩ := Nat.exists_eq_add_one_of_ne_zero (Nat.ne_zero_of_lt h)
    have hrest := ih (Nat.lt_of_succ_lt_succ h)
    exact .inArray (.firstElement (.element (b := []) nofun hrest))

/-- A text that opens more lists than may stand inside each other exceeds the limit. -/
theorem Json.exceedsLimit_replicate [Json.Limits] {n : Nat} (h : maxDepth < n) :
    ExceedsLimit (List.replicate n 91) := by
  show Exceeds .element maxDepth ([] ++ List.replicate n 91)
  exact .element nofun (exceeds_replicate maxDepth h)

/-- One packet with an acknowledgement that opens two thousand lists; it holds no integer. -/
def deepAck : RelayInfo :=
  { packetsFromA := 1, acksFromB := [{ body := .text (List.replicate 2000 91) }] }

/-- The counts are as expected and the only acknowledgement cannot be read, yet what is raised is
neither a mismatch nor a violation. -/
theorem RelayInfo.check_deepAck :
    deepAck.Counted 1 .a ∧ (∀ ack ∈ (deepAck.sentFrom .a).2, ∀ good, ¬ ack.body.Answers good) ∧
      ∃ e, deepAck.check 1 true .a = .error e ∧ ¬ e.IsVerdict := by
  have hcounted : deepAck.Counted 1 .a := ⟨rfl, rfl⟩
  have hexceeds : (AckBody.text (List.replicate 2000 91)).Exceeds :=
    ⟨_, rfl, Json.exceedsLimit_replicate (by decide)⟩
  have hunread : ∀ ack ∈ (deepAck.sentFrom .a).2, ∀ good, ¬ ack.body.Answers good := by
    rintro ack hack good ⟨v, hv⟩
    rw [List.mem_singleton.1 hack] at hv
    have hlimit : FailsOnly Failure.IsVerdict (AckBody.text (List.replicate 2000 91)).decode := by
      rw [hv]
      exact failsOnly_ok _
    exact (AckBody.failsOnly_decode _).1 hlimit hexceeds
  refine ⟨hcounted, hunread, ?_⟩
  have hreached : Ack.ReachesLimit "result" "error" (deepAck.sentFrom .a).2 :=
    ⟨[], _, [], rfl, nofun, hexceeds⟩
  have hother := mt (failsOnly_check deepAck 1 true .a).1 fun h => h.1 ⟨rfl, rfl, hreached⟩
  simp only [FailsOnly, not_forall] at hother
  obtain ⟨e, he, hverdict⟩ := hother
  exact ⟨e, he, hverdict⟩

end CrossChain
