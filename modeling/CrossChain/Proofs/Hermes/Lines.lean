import CrossChain.Proofs.Hermes.Failures
import CrossChain.Proofs.Outcome.Acknowledgement
import CrossChain.Proofs.Text.Lines

/-!
# The line of the result

What a process printed falls into lines at its line feeds (`Text.lines_append_feed`), so that an
object that it prints on a line of its own after everything else is found, whatever it logged before
(`ProcessResult.lastObjectLine?_of_printsLast`), and its member `result` is what the run told
(`ProcessResult.result_of_tells`).
-/

namespace CrossChain

/-! ## The object on the last line -/

/-- The line is the last one of what was printed, alone or after other lines, and with its line feed
or without. -/
def PrintsLast (stdout line : Text) : Prop :=
  ∃ logs rest, stdout = logs ++ (line ++ rest) ∧ (logs = [] ∨ ∃ earlier, logs = earlier ++ [10]) ∧
    (∀ c ∈ line, c.isLineBreak = false) ∧ (rest = [] ∨ rest = [10])

theorem PrintsLast.lines {stdout line : Text} (h : PrintsLast stdout line) (hline : line ≠ []) :
    ∃ before, Text.lines stdout = before ++ [line] := by
  obtain ⟨logs, rest, rfl, hlogs, hunbroken, hrest⟩ := h
  have hlast : Text.lines (line ++ rest) = [line] := by
    rcases hrest with rfl | rfl
    · rw [List.append_nil, Text.lines_of_unbroken hline hunbroken]
    · exact Text.lines_unbroken_feed hunbroken
  rcases hlogs with rfl | ⟨earlier, rfl⟩
  · exact ⟨[], hlast⟩
  · refine ⟨Text.lines (earlier ++ [10]), ?_⟩
    rw [List.append_assoc, List.singleton_append, Text.lines_append_feed, hlast]

theorem head?_trim_of_blank {b : Text} (hb : Json.Blank b) (t : Text) :
    (Text.trim (b ++ 123 :: t)).head? = some 123 := by
  have hblank : ∀ c ∈ b, c.isBlank = true := fun c hc =>
    CodePoint.isBlank_of_isAsciiBlank (Json.isAsciiBlank_of_isSpace (hb c hc))
  have hleft : Text.stripLeft CodePoint.isBlank (b ++ 123 :: t) = 123 :: t := by
    rw [Text.stripLeft, List.dropWhile_append_of_pos hblank]
    rfl
  rw [Text.trim, Text.strip, hleft, Text.stripRight, List.reverse_cons, List.dropWhile_append]
  split
  · rfl
  · rw [List.reverse_append]
    rfl

theorem head?_trim_of_objectText {line : Text} {members : List (Text × Json)}
    (h : Json.ObjectText line members) : (Text.trim line).head? = some 123 := by
  obtain ⟨b, t, b', rfl, hb, -, -⟩ := h
  exact head?_trim_of_blank hb _

namespace ProcessResult

variable [Json.Limits] {p : ProcessResult} {line : Text} {members : List (Text × Json)}

omit [Json.Limits] in
theorem lastObjectLine?_of_printsLast (hprints : PrintsLast p.stdout line)
    (h : Json.ObjectText line members) : p.lastObjectLine? = some line := by
  have hhead := head?_trim_of_objectText h
  have hline : line ≠ [] := by
    rintro rfl
    cases hhead
  obtain ⟨before, hlines⟩ := hprints.lines hline
  have hopens : [line].filter (fun line => (Text.trim line).head? == some 123) = [line] := by
    rw [List.filter_singleton, hhead]
    rfl
  rw [lastObjectLine?, hlines, List.filter_append, hopens, List.getLast?_concat]

/-- The object on the last line with one is found, unless the line exceeds a limit of the reader. -/
theorem finalObject?_of_line (hline : p.lastObjectLine? = some line)
    (h : Json.ObjectText line members) (hwithin : ¬ Json.ExceedsLimit line) :
    p.finalObject? = .ok (some (Table.ofPairs members)) := by
  have hread : Json.read line = .ok (.obj (Table.ofPairs members)) :=
    Json.read_of_spelled (Json.spelled_obj.2 ⟨members, h, rfl⟩) hwithin
  rw [finalObject?, hline]
  simp only [Json.parse, hread]
  rfl

/-- What is found is the object on that line. -/
theorem line_of_finalObject? {t : Table Json} (h : p.finalObject? = .ok (some t)) :
    ∃ line members, p.lastObjectLine? = some line ∧ Json.ObjectText line members ∧
      t = Table.ofPairs members := by
  rw [finalObject?] at h
  cases hline : p.lastObjectLine? with
  | none =>
    rw [hline] at h
    cases h
  | some line =>
    have hread := Json.reads line
    simp only [hline, Json.parse] at h
    generalize Json.read line = r at hread h
    cases hread with
    | @value v _ spelled =>
      cases v with
      | obj t' =>
        cases h
        obtain ⟨members, hobject, rfl⟩ := Json.spelled_obj.1 spelled
        exact ⟨line, members, rfl, hobject, rfl⟩
      | _ => cases h
    | fault => cases h
    | @limit e exceeds limit =>
      cases e with
      | fault f => exact limit.elim
      | _ => cases h

/-- A run that printed an object fails with its exit code or as the object says. -/
theorem result_of_finalObject? {t : Table Json} (h : p.finalObject? = .ok (some t)) :
    p.result = if (p.code != 0 || reportsError t) = true then
        .error (.relay (.ofMessage (p.failureText (some t))))
      else .ok (resultOf t) := by
  rw [ProcessResult.result, h]
  simp only [bind, Except.bind]
  split <;> rfl

omit [Json.Limits] in
theorem reportsError_ofPairs : reportsError (Table.ofPairs members) = true ↔
    Table.last? "status" members = some (.str "error") := by
  rw [reportsError, Table.get?_ofPairs]
  cases Table.last? "status" members with
  | none => exact iff_of_false Bool.false_ne_true (Option.some_ne_none _).symm
  | some v =>
    rw [Option.getD_some, Option.some_inj]
    cases v with
    | str s => rw [Json.isText, beq_iff_eq, Json.str.injEq]
    | _ => exact iff_of_false Bool.false_ne_true (by intro h; cases h)

/-- What the object on the last line with one tells of a run that went well. -/
theorem result_of_line (hcode : p.code = 0) (hline : p.lastObjectLine? = some line)
    (h : Json.ObjectText line members) (hwithin : ¬ Json.ExceedsLimit line)
    (hstatus : Table.last? "status" members ≠ some (.str "error")) :
    p.result = .ok ((Table.last? "result" members).getD .null) := by
  have herror : reportsError (Table.ofPairs members) = false :=
    Bool.eq_false_iff.2 fun herror => hstatus (reportsError_ofPairs.1 herror)
  rw [result_of_finalObject? (finalObject?_of_line hline h hwithin), hcode, herror, resultOf,
    Table.get?_ofPairs]
  rfl

/-- A run with an object failed if its exit code or the object says so. -/
theorem result_of_failed (hline : p.lastObjectLine? = some line)
    (h : Json.ObjectText line members) (hwithin : ¬ Json.ExceedsLimit line)
    (hfailed : p.code ≠ 0 ∨ Table.last? "status" members = some (.str "error")) :
    p.result = .error (.relay (.ofMessage (p.failureText (some (Table.ofPairs members))))) := by
  rw [result_of_finalObject? (finalObject?_of_line hline h hwithin), if_pos]
  rw [Bool.or_eq_true, bne_iff_ne, reportsError_ofPairs]
  exact hfailed

/-- The run went well, and said so with its result in the object on its last line. -/
structure Tells (p : ProcessResult) (result : Json) : Prop where
  code : p.code = 0
  object : ∃ line members, PrintsLast p.stdout line ∧ Json.ObjectText line members ∧
    Table.last? "status" members = some (.str "success") ∧
    Table.last? "result" members = some result

/-- What was told is the result of the run, unless the line exceeds a limit of the reader. -/
theorem result_of_tells {result : Json} (h : p.Tells result) (hwithin : ¬ p.ExceedsLimit) :
    p.result = .ok result := by
  obtain ⟨hcode, line, members, hprints, hobject, hstatus, hresult⟩ := h
  have hline := lastObjectLine?_of_printsLast hprints hobject
  have hsuccess : text "success" ≠ text "error" := by decide
  have herror : Table.last? "status" members ≠ some (.str "error") := fun herror =>
    hsuccess (Json.str.inj (Option.some.inj (hstatus.symm.trans herror)))
  rw [result_of_line hcode hline hobject (fun hexceeds => hwithin ⟨line, hline, hexceeds⟩) herror,
    hresult, Option.getD_some]

theorem Tells.result_eq {result r : Json} (h : p.Tells result) (hok : p.result = .ok r) :
    r = result := by
  rcases p.finalObject?_cases with ⟨hwithin, -⟩ | ⟨-, e, he, -⟩
  · rw [result_of_tells h hwithin] at hok
    exact (Except.ok.inj hok).symm
  · rw [ProcessResult.result, he] at hok
    cases hok

end ProcessResult

end CrossChain
