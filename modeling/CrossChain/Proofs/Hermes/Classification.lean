import CrossChain.Proofs.Hermes.Lines
import CrossChain.Proofs.Json.Display
import CrossChain.Relay.Sweep

/-!
# The kind of a failed run

The kind of a failure is told by two phrases in its message (`RelayKind.decided_classify`), and the
message of a failed run is what its object or its error output says.  So the kind is decided by the
result if that is a string, by the error output if there is no result, and otherwise by the strings
that the result mentions, as they are shown in quotes (`Hermes.command_failed`).  A phrase without
an apostrophe is shown as it stands; the one with an apostrophe is not, in a string with a double
quote in it (`RelayKind.infix_quoted_heightOrdering`), and then the kind is lost.

Whatever hermes is asked for, a failure of the relayer has the kind that its message tells
(`Hermes.failsOnly_kindTold`).
-/

namespace CrossChain

/-- If this is a failure of the relayer, then of the kind that its message tells. -/
def Failure.KindTold (e : Failure) : Prop :=
  ∀ fault, e = .relay fault → fault.kind = .classify fault.message

theorem Failure.kindTold_ofMessage (m : Text) : KindTold (.relay (.ofMessage m)) := by
  rintro _ ⟨⟩
  rfl

theorem Failure.kindTold_of_not {e : Failure} (h : ¬ e.IsRelay) : e.KindTold := by
  rintro fault rfl
  exact absurd rfl h

namespace RelayKind

/-! ## Marks -/

/-- The kind is told by which marks are found. -/
structure Decided (kind : RelayKind) (found : Text → Prop) : Prop where
  transient : kind.isTransient = true ↔ found accountSequence.mark ∨ found heightOrdering.mark
  sequence : kind = .accountSequence ↔ found accountSequence.mark

theorem Decided.congr {kind : RelayKind} {found found' : Text → Prop} (h : kind.Decided found)
    (hsame : ∀ k : RelayKind, k.isTransient = true → (found k.mark ↔ found' k.mark)) :
    kind.Decided found' where
  transient := by rw [h.transient, hsame _ rfl, hsame _ rfl]
  sequence := by rw [h.sequence, hsame _ rfl]

/-- A message is of the kind whose mark stands in it; an account sequence comes first. -/
theorem decided_classify (message : Text) :
    (classify message).Decided fun mark => mark <:+: message := by
  rw [classify]
  split
  · next hsequence =>
    have hfound := Text.has_iff.1 hsequence
    exact ⟨iff_of_true rfl (.inl hfound), iff_of_true rfl hfound⟩
  · next hsequence =>
    rw [Text.has_iff] at hsequence
    split
    · next hheight =>
      have hfound := Text.has_iff.1 hheight
      exact ⟨iff_of_true rfl (.inr hfound), iff_of_false nofun hsequence⟩
    · next hheight =>
      rw [Text.has_iff] at hheight
      exact ⟨iff_of_false nofun (not_or.2 ⟨hsequence, hheight⟩), iff_of_false nofun hsequence⟩

theorem words_mark {kind : RelayKind} (h : kind.isTransient = true) : Text.Words kind.mark := by
  cases kind with
  | accountSequence | heightOrdering =>
    refine ⟨by decide, by decide, ?_⟩
    simp only [List.forall_mem_cons]
    exact ⟨by decide, by decide, by decide, by decide, by decide, by decide, nofun⟩
  | other => cases h

theorem visible_mark (kind : RelayKind) : kind.mark.isVisible = true := by
  cases kind <;> decide

/-- What is trimmed off a message says nothing of its kind. -/
theorem infix_trim_mark (kind : RelayKind) (s : Text) :
    kind.mark <:+: Text.trim s ↔ kind.mark <:+: s := by
  apply Text.infix_trim
  · cases kind <;> exact fun c hc => by cases hc; rfl
  · cases kind <;> exact fun c hc => by cases hc; rfl

/-! ### Marks in quotes -/

theorem infix_quoted_accountSequence {s : Text} (h : accountSequence.mark <:+: s) :
    accountSequence.mark <:+: s.quoted := by
  refine Text.infix_quoted (visible_mark _) (by decide) ?_ h
  rcases s.quoteMark_cases with hmark | hmark <;> rw [hmark] <;> decide

/-- The mark with the apostrophe is shown as it stands unless there is a double quote as well. -/
theorem infix_quoted_heightOrdering {s : Text} (h : heightOrdering.mark <:+: s) :
    heightOrdering.mark <:+: s.quoted ↔ 34 ∉ s := by
  constructor
  · intro hquoted hdouble
    have happostrophe : [110, 39, 116] <:+: heightOrdering.mark :=
      ⟨text "ca", text " be greater than max height", by decide⟩
    have hne : (110 : CodePoint) ≠ 92 ∧ (116 : CodePoint) ≠ 39 := by decide
    exact Text.not_infix_quoted hdouble hne.1 hne.2 (happostrophe.trans hquoted)
  · intro hdouble
    have hsingle : 39 ∈ s := h.subset (by decide)
    refine Text.infix_quoted (visible_mark _) (by decide) ?_ h
    rw [Text.quoteMark_of_single hsingle hdouble]
    decide

end RelayKind

/-! ## Messages of failed runs -/

namespace ProcessResult

variable {p : ProcessResult} {t : Table Json} {line : Text} {members : List (Text × Json)}

theorem failureText_of_told (h : (resultOf t).isEmpty = false) :
    p.failureText (some t) = (resultOf t).display := by
  have hne := List.isEmpty_eq_false_iff.2 (Json.display_ne_nil h)
  simp only [failureText, Option.getD_some, h, Bool.false_eq_true, if_false, hne]

theorem failureText_of_printed (h : (resultOf t).isEmpty = true)
    (hprinted : Text.trim p.stderr ≠ []) : p.failureText (some t) = Text.trim p.stderr := by
  have hstderr : p.stderr.isEmpty = false :=
    List.isEmpty_eq_false_iff.2 fun hnil => hprinted (by rw [hnil]; rfl)
  have hne := List.isEmpty_eq_false_iff.2 hprinted
  simp only [failureText, Option.getD_some, h, if_true, printed, hstderr, Bool.false_eq_true,
    if_false, hne]

end ProcessResult

/-- What the kind of a failed run says of the result that was told and of the error output. -/
structure Classified (told : Json) (stderr : Text) (kind : RelayKind) : Prop where
  /-- A string decides the kind. -/
  string : ∀ s, told = .str s → s ≠ [] → kind.Decided fun mark => mark <:+: s
  /-- Without a result the error output does. -/
  printed : told.isEmpty = true → Text.trim stderr ≠ [] →
    kind.Decided fun mark => mark <:+: stderr
  /-- Any other result does by the strings in it, as they are shown in quotes. -/
  shown : told.isEmpty = false → (∀ s, told ≠ .str s) →
    kind.Decided fun mark => ∃ s, told.Mentions s ∧ mark <:+: s.quoted
  /-- An account sequence is found wherever it is mentioned. -/
  sequence : ∀ s, told.Mentions s → RelayKind.accountSequence.mark <:+: s →
    kind = .accountSequence
  /-- A height is found wherever it is mentioned, alone or without a double quote. -/
  height : ∀ s, told.Mentions s → RelayKind.heightOrdering.mark <:+: s →
    told = .str s ∨ 34 ∉ s → kind.isTransient = true

namespace ProcessResult

open RelayKind (Decided classify decided_classify)

variable {p : ProcessResult} {t : Table Json}

/-- What is told decides the kind, if it is not empty. -/
theorem decided_of_told (h : (resultOf t).isEmpty = false) :
    (classify (p.failureText (some t))).Decided fun mark => mark <:+: (resultOf t).display := by
  rw [failureText_of_told h]
  exact decided_classify _

theorem decided_of_string {s : Text} (hs : resultOf t = .str s) (hne : s ≠ []) :
    (classify (p.failureText (some t))).Decided fun mark => mark <:+: s := by
  have h : (resultOf t).isEmpty = false := by
    rw [hs, Json.isEmpty]
    exact List.isEmpty_eq_false_iff.2 hne
  have hdecided := decided_of_told (p := p) h
  rwa [hs] at hdecided

theorem decided_of_shown (h : (resultOf t).isEmpty = false) (hother : ∀ s, resultOf t ≠ .str s) :
    (classify (p.failureText (some t))).Decided fun mark =>
      ∃ s, (resultOf t).Mentions s ∧ mark <:+: s.quoted := by
  refine (decided_of_told h).congr fun k hk => ?_
  rw [Json.display_of_not_str hother, Json.infix_quoted_iff (RelayKind.words_mark hk)]

theorem decided_of_printed (h : (resultOf t).isEmpty = true) (hprinted : Text.trim p.stderr ≠ []) :
    (classify (p.failureText (some t))).Decided fun mark => mark <:+: p.stderr := by
  rw [failureText_of_printed h hprinted]
  exact (decided_classify _).congr fun k _ => k.infix_trim_mark p.stderr

/-- A mark that is mentioned is looked for in the string that was told, or in quotes. -/
theorem decided_of_mentions {kind : RelayKind} (hkind : kind.isTransient = true) {s : Text}
    (hs : (resultOf t).Mentions s) (hmark : kind.mark <:+: s) :
    (resultOf t = .str s ∧
        (classify (p.failureText (some t))).Decided fun mark => mark <:+: s) ∨
      (∀ s, resultOf t ≠ .str s) ∧ (classify (p.failureText (some t))).Decided fun mark =>
        ∃ s, (resultOf t).Mentions s ∧ mark <:+: s.quoted := by
  have hne : s ≠ [] := List.ne_nil_of_mem (hmark.subset (RelayKind.words_mark hkind).spaced)
  by_cases hstring : ∃ s, resultOf t = .str s
  · obtain ⟨s', hs'⟩ := hstring
    rw [hs'] at hs
    cases hs
    exact .inl ⟨hs', decided_of_string hs' hne⟩
  · have hother := not_exists.1 hstring
    exact .inr ⟨hother, decided_of_shown (hs.isEmpty_eq_false hne) hother⟩

theorem classified_failureText (p : ProcessResult) (t : Table Json) :
    Classified (resultOf t) p.stderr (classify (p.failureText (some t))) where
  string _ hs hne := decided_of_string hs hne
  printed h hprinted := decided_of_printed h hprinted
  shown h hother := decided_of_shown h hother
  sequence s hs hmark := by
    rcases decided_of_mentions rfl hs hmark with ⟨-, hdecided⟩ | ⟨-, hdecided⟩
    · exact hdecided.sequence.2 hmark
    · exact hdecided.sequence.2 ⟨s, hs, RelayKind.infix_quoted_accountSequence hmark⟩
  height s hs hmark hplain := by
    rcases decided_of_mentions rfl hs hmark with ⟨-, hdecided⟩ | ⟨hother, hdecided⟩
    · exact hdecided.transient.2 (.inr hmark)
    · have hdouble := hplain.resolve_left (hother s)
      exact hdecided.transient.2
        (.inr ⟨s, hs, (RelayKind.infix_quoted_heightOrdering hmark).2 hdouble⟩)

end ProcessResult

namespace Hermes

variable {σ : Type} {binary : Text} {run : List Text → Act σ ProcessResult} {s t : σ}
  {p : ProcessResult} {words : List Text} {line : Text} {members : List (Text × Json)}

/-- A command that failed with an object fails by the relayer, and the kind of that failure is told
by the result of the object and by the error output. -/
theorem command_failed [Json.Limits] (hrun : run (binary :: "--json" :: words) s = .ok p t)
    (hline : p.lastObjectLine? = some line) (h : Json.ObjectText line members)
    (hwithin : ¬ Json.ExceedsLimit line)
    (hfailed : p.code ≠ 0 ∨ Table.last? "status" members = some (.str "error")) :
    ∃ fault, command binary run (words.map .str) s = .error (.relay fault) t ∧
      fault.kind = .classify fault.message ∧
      Classified ((Table.last? "result" members).getD .null) p.stderr fault.kind := by
  refine ⟨.ofMessage (p.failureText (some (Table.ofPairs members))), ?_, rfl, ?_⟩
  · rw [command_of_run hrun, ProcessResult.result_of_failed hline h hwithin hfailed]
    rfl
  · have hclassified := p.classified_failureText (Table.ofPairs members)
    rwa [ProcessResult.resultOf, Table.get?_ofPairs] at hclassified

/-! ### Kinds of whatever fails -/

section KindTold

open Failure (KindTold kindTold_ofMessage kindTold_of_not)

theorem failsOnly_kindTold_of_not {α : Type} {r : Except Failure α}
    (h : FailsOnly (fun e => ¬ e.IsRelay) r) : FailsOnly KindTold r :=
  fun e he => kindTold_of_not (h e he)

theorem failsOnly_kindTold_result [Json.Limits] (p : ProcessResult) :
    FailsOnly KindTold p.result := by
  rw [p.failsOnly_result_iff kindTold_ofMessage]
  rcases p.finalObject?_cases with ⟨-, o, ho⟩ | ⟨-, e, he, hother⟩
  · rw [ho]
    exact failsOnly_ok o
  · rw [he, failsOnly_error]
    rw [Bool.or_eq_false_iff] at hother
    exact kindTold_of_not fun h => Bool.false_ne_true (hother.1.symm.trans h)

theorem failsOnly_kindTold_commandLine (arguments : List Json) :
    FailsOnly KindTold (commandLine binary arguments) := by
  rw [commandLine_eq]
  rcases words_cases arguments with ⟨words, -, hwords⟩ | ⟨-, hwords⟩
  · rw [hwords]
    exact failsOnly_ok _
  · rw [hwords]
    exact failsOnly_error.2 (kindTold_of_not nofun)

theorem failsOnly_kindTold_ackOf (src dest : ChannelEnd) (event : Table Json) :
    FailsOnly KindTold (ackOf src dest event) := by
  rw [ackOf_eq, failsOnly_bind]
  refine ⟨?_, fun bytes _ => failsOnly_kindTold_of_not (failsOnly_packetOf src dest bytes _)⟩
  rcases ackBytes_cases (ackIn event) with ⟨-, m, hm⟩ | ⟨-, hother, -⟩
  · rw [hm]
    exact failsOnly_error.2 (kindTold_ofMessage m)
  · exact failsOnly_kindTold_of_not hother

variable (hrun : ∀ line s, Act.FailsOnly KindTold (run line) s)

include hrun

theorem failsOnly_kindTold_command [Json.Limits] (arguments : List Json) (s : σ) :
    Act.FailsOnly KindTold (command binary run arguments) s := by
  rw [command, Act.failsOnly_bind, Act.failsOnly_ofExcept]
  refine ⟨failsOnly_kindTold_commandLine arguments, fun line t _ => ?_⟩
  rw [Act.failsOnly_bind]
  refine ⟨hrun line t, fun p u _ => ?_⟩
  exact Act.failsOnly_ofExcept.2 (failsOnly_kindTold_result p)

theorem failsOnly_kindTold_relayDirection [Json.Limits] (src dest : ChainDefinition)
    (srcEnd destEnd : ChannelEnd) (s : σ) :
    Act.FailsOnly KindTold (relayDirection binary run src dest srcEnd destEnd) s := by
  rw [relayDirection, Act.failsOnly_bind]
  refine ⟨failsOnly_kindTold_command hrun _ s, fun result t _ => ?_⟩
  rw [Act.failsOnly_bind, Act.failsOnly_ofExcept, acksOf, failsOnly_mapM]
  refine ⟨fun _ event _ _ _ => failsOnly_kindTold_ackOf srcEnd destEnd event, fun acks u _ => ?_⟩
  cases acks.isEmpty with
  | true => exact Act.failsOnly_pure _
  | false =>
    exact (Act.failsOnly_bind_of_forall fun _ v => Act.failsOnly_pure _).2
      (failsOnly_kindTold_command hrun _ u)

theorem failsOnly_kindTold_relayChannel [Json.Limits] (a b : ChainDefinition) (pair : ChannelPair)
    (s : σ) : Act.FailsOnly KindTold (relayChannel binary run a b pair) s := by
  rw [relayChannel, Act.failsOnly_bind]
  refine ⟨failsOnly_kindTold_relayDirection hrun a b _ _ s, fun moved t _ => ?_⟩
  rw [Act.failsOnly_bind_of_forall fun _ u => Act.failsOnly_pure _]
  exact failsOnly_kindTold_relayDirection hrun b a _ _ t

/-- Every failure of the relayer that comes of a call has the kind that its message tells, if the
runs of hermes themselves add none of another kind. -/
theorem failsOnly_kindTold [Json.Limits] (call : RelayerCall) (s : σ) :
    Act.FailsOnly KindTold ((Relayer.hermes binary run).answer call) s := by
  cases call with
  | createConnection a b =>
    show Act.FailsOnly KindTold (createConnection binary run a b) s
    rw [createConnection, Act.failsOnly_bind_of_forall]
    · exact failsOnly_kindTold_command hrun _ s
    · exact fun result t => Act.failsOnly_ofExcept.2 (failsOnly_ofSides kindTold_ofMessage _ _ _)
  | createChannel link side portA portB order version =>
    show Act.FailsOnly KindTold
      (createChannel binary run link side portA portB order version) s
    rw [createChannel, Act.failsOnly_bind_of_forall]
    · exact failsOnly_kindTold_command hrun _ s
    · intro result t
      rw [Act.failsOnly_bind_of_forall fun _ u => Act.failsOnly_pure _]
      exact Act.failsOnly_ofExcept.2 (failsOnly_ofSides kindTold_ofMessage _ _ _)
  | relayAll link =>
    show Act.FailsOnly KindTold (relayAll binary run link) s
    rw [relayAll, Act.failsOnly_foldlM]
    intro before pair after _ info t _
    rw [Act.failsOnly_bind_of_forall fun _ u => Act.failsOnly_pure _]
    exact failsOnly_kindTold_relayChannel hrun _ _ pair t
  | isReady =>
    show Act.FailsOnly KindTold (isReady binary run) s
    intro e t h
    cases hcommand : command binary run [.str "health-check"] s with
    | ok result u =>
      have hready : isReady binary run s = .ok true u :=
        Act.bind_run_ok (Act.attempt_run_ok hcommand)
      rw [hready] at h
      cases h
    | error e' u =>
      have hready : isReady binary run s =
          (if e'.isRelay || e'.isSystem then return false else throw e' : Act σ Bool) u :=
        Act.bind_run_ok (Act.attempt_run_error hcommand)
      rw [hready] at h
      split at h
      · cases h
      · cases h
        exact failsOnly_kindTold_command hrun _ s e t hcommand

end KindTold

/-! ### Runs that tell of one string in a list -/

/-- The object with a list of one string for its result. -/
def listedLine (written : Text) : Text := "\x7b\"result\":[\"" ++ written ++ "\"]\x7d"

/-- Hermes exits with one and tells of a string. -/
def failsWith (written : Text) : ProcessResult where
  code := 1
  stdout := listedLine written

theorem command_failed_sequence :
    ∃ fault, command "hermes" (started fun _ _ => (failsWith "incorrect account sequence", ())) []
        () = .error (.relay fault) () ∧
      fault.kind = .accountSequence := by
  have hread : Json.read (listedLine "incorrect account sequence") =
      .ok (.obj [("result", .arr [.str "incorrect account sequence"])]) := by cbv
  obtain ⟨members, hobject, hwithin, hlast⟩ := Json.objectText_of_read hread
  have hrun : started (fun _ _ => (failsWith "incorrect account sequence", ()))
      ["hermes", "--json"] () = .ok (failsWith "incorrect account sequence") () := rfl
  obtain ⟨fault, hfault, -, hclassified⟩ := command_failed hrun (by cbv) hobject hwithin
    (.inl (by decide))
  rw [hlast "result"] at hclassified
  exact ⟨fault, hfault, hclassified.sequence _
    (.item (List.mem_singleton.2 rfl) (.self _)) List.infix_rfl⟩

/-- A phrase with an apostrophe, after double quotes. -/
def toldHeight : Text := text "height \"10\" can" ++ 39 :: text "t be greater than max height 9"

/-- How it is written in JSON. -/
def writtenHeight : Text := "height \\\"10\\\" can't be greater than max height 9"

/-- How it is shown in a list. -/
def shownHeight : Text := "['height \"10\" can\\'t be greater than max height 9']"

theorem quoted_toldHeight : Json.quoted (.arr [.str toldHeight]) = shownHeight := by
  rw [Json.quoted_arr, List.map_singleton, Json.quoted, toldHeight,
    Text.quoted_apostrophe (by decide) (by decide) (by decide) (by decide) (by decide)]
  decide

/-- The phrase stands in what hermes tells, and the failure is of no kind that passes. -/
theorem command_loses_height :
    ∃ members, (failsWith writtenHeight).lastObjectLine? = some (listedLine writtenHeight) ∧
      Json.ObjectText (listedLine writtenHeight) members ∧
      Table.last? "result" members = some (.arr [.str toldHeight]) ∧
      RelayKind.heightOrdering.mark <:+: toldHeight ∧
      command "hermes" (started fun _ _ => (failsWith writtenHeight, ())) [] () =
        .error (.relay ⟨.other, shownHeight⟩) () := by
  have hread : Json.read (listedLine writtenHeight) =
      .ok (.obj [("result", .arr [.str toldHeight])]) := by cbv
  have hline : (failsWith writtenHeight).lastObjectLine? = some (listedLine writtenHeight) := by
    cbv
  have hmark : Text.has RelayKind.heightOrdering.mark toldHeight = true := by decide
  obtain ⟨members, hobject, hwithin, hlast⟩ := Json.objectText_of_read hread
  have hresult : Table.last? "result" members = some (.arr [.str toldHeight]) := hlast "result"
  have htold : ProcessResult.resultOf (Table.ofPairs members) = .arr [.str toldHeight] := by
    rw [ProcessResult.resultOf, Table.get?_ofPairs, hresult, Option.getD_some]
  have hkind : RelayKind.classify shownHeight = .other := by decide
  have hfailed : (failsWith writtenHeight).result = .error (.relay ⟨.other, shownHeight⟩) := by
    rw [ProcessResult.result_of_failed hline hobject hwithin (.inl (by decide)),
      ProcessResult.failureText_of_told (by rw [htold]; rfl), htold,
      Json.display_of_not_str (by rintro _ ⟨⟩), quoted_toldHeight, RelayFault.ofMessage, hkind]
  have hgiven : command "hermes" (started fun _ _ => (failsWith writtenHeight, ())) [] () =
      Act.ofExcept (failsWith writtenHeight).result () := command_run []
  rw [hfailed] at hgiven
  exact ⟨members, hline, hobject, hresult, Text.has_iff.1 hmark, hgiven⟩

end Hermes

end CrossChain
