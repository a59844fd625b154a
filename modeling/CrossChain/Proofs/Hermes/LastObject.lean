import CrossChain.Proofs.Hermes.Lines
import CrossChain.Proofs.Json.Phases

/-!
# The last object that hermes prints

Hermes prints its result as an object on a line of its own, the last line with a brace.  Lines end
at more code points than line feeds, and JSON allows three of them in strings as they are.  A line
without these is found as a whole, whatever it was logged after, and its result is what hermes told
(`command_last_object`).  A line with one of them is torn, and its result is never told: the piece
that is found last is the first one, which is no JSON as a string is open at its end, or it started
in a string, and then no name in it is one that is looked for (`ProcessResult.whole_or_turned`).
-/

namespace CrossChain

/-! ## The last line with a brace -/

/-- After lines of any kind the text is printed, and after it at most lines without a brace. -/
def EndsWith (stdout line : Text) : Prop :=
  ∃ logs tail, stdout = logs ++ 10 :: (line ++ tail) ∧ 123 ∉ tail ∧ ∀ c ∈ tail.head?, c = 10

/-- The line can be taken for an object. -/
def opensBrace (line : Text) : Bool := (Text.trim line).head? == some 123

namespace ProcessResult

open Text (Between)
open Json (Phase)

variable {p : ProcessResult} {line : Text} {members : List (Text × Json)}

/-- A line with a brace in it does not reach beyond the text. -/
theorem between_of_append {tail l : Text} (hl : l ∈ Text.lines (line ++ tail))
    (hopens : opensBrace l = true) (hbrace : 123 ∉ tail) (hfeed : ∀ c ∈ tail.head?, c = 10) :
    ∃ pre post, line = pre ++ (l ++ post) ∧ Between pre l post := by
  have hmem : 123 ∈ l := Text.mem_of_head?_trim (beq_iff_eq.1 hopens)
  obtain ⟨pre, post, hs, hbetween⟩ := Text.between_of_mem_lines hl
  rcases List.append_eq_append_iff.1 hs with ⟨rest, rfl, htail⟩ | ⟨rest, hline, hrest⟩
  · refine absurd ?_ hbrace
    rw [htail]
    exact List.mem_append_right _ (List.mem_append_left _ hmem)
  rcases List.append_eq_append_iff.1 hrest with ⟨more, rfl, rfl⟩ | ⟨more, rfl, rfl⟩
  · refine ⟨pre, more, hline, hbetween.unbroken, hbetween.before, fun c hc => ?_⟩
    rw [Option.mem_def] at hc
    exact hbetween.after c (by rw [List.head?_append, hc]; rfl)
  · cases more with
    | nil => exact ⟨pre, [], by rw [List.append_nil, List.append_nil]; exact hline,
        hbetween.unbroken, hbetween.before, nofun⟩
    | cons c more =>
      have hbreak := hbetween.unbroken c (List.mem_append_right _ List.mem_cons_self)
      rw [hfeed c rfl] at hbreak
      cases hbreak

/-- The object that is printed last opens on a line with a brace. -/
theorem exists_opensBrace (h : Json.ObjectText line members) (hfeed : 10 ∉ line)
    (hreturn : 13 ∉ line) (tail : Text) :
    ∃ l ∈ Text.lines (line ++ tail), opensBrace l = true := by
  obtain ⟨b, t, b', rfl, hb, -, -⟩ := h
  have hunbroken : ∀ c ∈ b ++ [123], c.isLineBreak = false := by
    refine List.forall_mem_append.2 ⟨fun c hc => ?_, List.forall_mem_singleton.2 rfl⟩
    rcases Json.isSpace_iff.1 (hb c hc) with rfl | rfl | rfl | rfl
    · rfl
    · rfl
    · exact absurd (List.mem_append_left _ hc) hfeed
    · exact absurd (List.mem_append_left _ hc) hreturn
  obtain ⟨x, hx⟩ := Text.exists_line_of_unbroken hunbroken (List.concat_ne_nil 123 b)
    (t ++ 125 :: b' ++ tail)
  simp only [List.append_assoc, List.singleton_append] at hx
  refine ⟨b ++ 123 :: x, ?_, beq_iff_eq.2 (head?_trim_of_blank hb x)⟩
  simpa only [List.append_assoc, List.cons_append] using hx

/-- The last line with a brace is one of those that the last object falls into. -/
theorem exists_lastObjectLine (hends : EndsWith p.stdout line) (h : Json.ObjectText line members)
    (hfeed : 10 ∉ line) (hreturn : 13 ∉ line) :
    ∃ l, p.lastObjectLine? = some l ∧ ∃ pre post, line = pre ++ (l ++ post) ∧
      Between pre l post := by
  obtain ⟨logs, tail, hstdout, hbrace, htail⟩ := hends
  have hlines : p.lastObjectLine? = ((Text.lines (logs ++ [10])).filter opensBrace ++
      (Text.lines (line ++ tail)).filter opensBrace).getLast? := by
    rw [← List.filter_append, ← Text.lines_append_feed, ← hstdout]
    rfl
  have hsome : (Text.lines (line ++ tail)).filter opensBrace ≠ [] := by
    obtain ⟨l, hl, hopens⟩ := exists_opensBrace h hfeed hreturn tail
    exact List.ne_nil_of_mem (List.mem_filter.2 ⟨hl, hopens⟩)
  rw [List.getLast?_append_of_ne_nil _ hsome, List.getLast?_eq_some_getLast hsome] at hlines
  obtain ⟨hl, hopens⟩ := List.mem_filter.1 (List.getLast_mem hsome)
  exact ⟨_, hlines, between_of_append hl hopens hbrace htail⟩

/-! ## Torn objects -/

/-- A line of an object text is all of it, or it holds no object, or the names of its object start
with what can follow a closing quote. -/
theorem whole_or_turned {pre l post : Text} {ms : List (Text × Json)}
    (h : Json.ObjectText line members) (hfeed : 10 ∉ line) (hreturn : 13 ∉ line)
    (hline : line = pre ++ (l ++ post)) (hbetween : Between pre l post)
    (hl : Json.ObjectText l ms) : l = line ∨ ∀ m ∈ ms, Json.StartsTurned m.1 := by
  obtain ⟨ψ, hrun, -⟩ := h.exists_run
  have hlarge : ∀ c ∈ line, c.isLineBreak = true → 127 ≤ c.val := fun c hc hbreak =>
    (Json.tears_of_run hrun hc hbreak (ne_of_mem_of_not_mem hc hfeed)
      (ne_of_mem_of_not_mem hc hreturn)).le
  subst hline
  obtain ⟨φ, hpre, hrest⟩ := Phase.run?_append_eq_some.1 hrun
  obtain ⟨χ, hlrun, hpost⟩ := Phase.run?_append_eq_some.1 hrest
  rcases List.eq_nil_or_concat pre with rfl | ⟨q, c, rfl⟩
  · left
    cases post with
    | nil => rw [List.nil_append, List.append_nil]
    | cons c post =>
      -- A string is open at the line break, but none is at the end of an object.
      have hc := hlarge c (by simp) (hbetween.after c rfl)
      obtain ⟨φ', hnext, -⟩ := Phase.run?_cons_eq_some.1 hpost
      obtain ⟨rfl, -⟩ := Phase.eq_inside_of_next? hc hnext
      cases hpre
      obtain ⟨ψ', hends, hended⟩ := hl.exists_run
      rw [hlrun] at hends
      cases hends
      rcases hended with hended | hended <;> cases hended
  · right
    have hc := hlarge c (by simp) (hbetween.before c (by simp))
    obtain ⟨φ', -, hlast⟩ := Phase.run?_append_eq_some.1 (List.concat_eq_append ▸ hpre)
    obtain ⟨φ'', hnext, hend⟩ := Phase.run?_cons_eq_some.1 hlast
    obtain ⟨-, rfl⟩ := Phase.eq_inside_of_next? hc hnext
    cases hend
    exact hl.turned_of_run hlrun

theorem not_startsTurned_result : ¬ Json.StartsTurned (text "result") := by
  rintro ⟨c, hc, hfollows⟩
  cases hc
  cases hfollows

/-- No result is told by a torn object. -/
theorem null_of_turned [Json.Limits] {l : Text} (hl : p.lastObjectLine? = some l)
    (hturned : ∀ ms, Json.ObjectText l ms → ∀ m ∈ ms, Json.StartsTurned m.1) {r : Json}
    (hok : p.result = .ok r) : r = .null := by
  have hfound : ∃ t, p.finalObject? = .ok (some t) := by
    rw [ProcessResult.result] at hok
    obtain ⟨final, hfinal, hok⟩ := Act.except_bind_eq_ok hok
    cases final with
    | none => cases hok
    | some t => exact ⟨t, hfinal⟩
  obtain ⟨t, hfinal⟩ := hfound
  rw [result_of_finalObject? hfinal] at hok
  split at hok
  · cases hok
  · obtain ⟨l', ms, hl', hobject, rfl⟩ := line_of_finalObject? hfinal
    rw [hl] at hl'
    cases hl'
    have hnone : Table.last? "result" ms = none := by
      refine Table.last?_eq_none.2 fun hmem => ?_
      obtain ⟨m, hm, hname⟩ := List.mem_map.1 hmem
      exact not_startsTurned_result (hname ▸ hturned ms hobject m hm)
    rw [resultOf, Table.get?_ofPairs, hnone, Option.getD_none] at hok
    exact (Except.ok.inj hok).symm

end ProcessResult

/-! ## What a command gives -/

namespace Hermes

variable {σ : Type} {binary : Text} {run : List Text → Act σ ProcessResult} {s t : σ}
  {p : ProcessResult} {words : List Text} {line : Text} {members : List (Text × Json)}

/-- The result of a command that went well is what the last object says, if there is no line break
in its text that JSON allows in strings; if there is one, then no result is ever given. -/
theorem command_last_object [Json.Limits] (hrun : run (binary :: "--json" :: words) s = .ok p t)
    (hcode : p.code = 0) (hends : EndsWith p.stdout line) (h : Json.ObjectText line members)
    (hfeed : 10 ∉ line) (hreturn : 13 ∉ line) (hwithin : ¬ Json.ExceedsLimit line)
    (hstatus : Table.last? "status" members ≠ some (.str "error")) :
    ((∀ c ∈ line, ¬ Json.Tears c) → command binary run (words.map .str) s =
        .ok ((Table.last? "result" members).getD .null) t) ∧
      ((∃ c ∈ line, Json.Tears c) → ∀ r t',
        command binary run (words.map .str) s = .ok r t' → r = .null) := by
  obtain ⟨l, hl, pre, post, hline, hbetween⟩ :=
    ProcessResult.exists_lastObjectLine hends h hfeed hreturn
  rw [command_of_run hrun]
  constructor
  · intro hwhole
    obtain ⟨ψ, hgone, -⟩ := h.exists_run
    have hunbroken : ∀ c ∈ line, c.isLineBreak = false := fun c hc =>
      Bool.eq_false_iff.2 fun hbreak => hwhole c hc (Json.tears_of_run hgone hc hbreak
        (ne_of_mem_of_not_mem hc hfeed) (ne_of_mem_of_not_mem hc hreturn))
    obtain ⟨rfl, rfl⟩ := hbetween.eq_nil (hline ▸ hunbroken)
    rw [List.append_nil, List.nil_append] at hline
    rw [ProcessResult.result_of_line hcode (hline ▸ hl) h hwithin hstatus]
    rfl
  · rintro ⟨c, hc, htears⟩ r t' hok
    have hne : l ≠ line := by
      rintro rfl
      have hbreak := hbetween.unbroken c hc
      rw [htears.isLineBreak] at hbreak
      cases hbreak
    refine ProcessResult.null_of_turned hl (fun ms hms => ?_) (Act.ofExcept_eq_ok hok).1
    exact (ProcessResult.whole_or_turned h hfeed hreturn hline hbetween hms).resolve_left hne

/-! ### Lines with a result -/

/-- A line on which hermes tells of a string. -/
def toldLine (told : Text) : Text :=
  "\x7b\"status\":\"success\",\"result\":\"" ++ told ++ "\"\x7d"

/-- Hermes logs a line before it tells of a string, and one after. -/
def tellsString (told : Text) : ProcessResult where
  stdout := text "waiting" ++ 10 :: (toldLine told ++ 10 :: text "done")

/-- The members of the object on such a line. -/
def toldMembers (told : Text) : Table Json := [("status", .str "success"), ("result", .str told)]

theorem endsWith_tellsString (told : Text) :
    EndsWith (tellsString told).stdout (toldLine told) :=
  ⟨_, _, rfl, by decide, fun c hc => (Option.some.inj hc).symm⟩

theorem command_last_object_done :
    command "hermes" (started fun _ _ => (tellsString "done", ())) [] () =
      .ok (.str "done") () := by
  have hread : Json.read (toldLine "done") = .ok (.obj (toldMembers "done")) := by cbv
  have hunbroken : (toldLine "done").all (fun c => !c.isLineBreak) = true := by decide
  have hsuccess : text "success" ≠ text "error" := by decide
  obtain ⟨members, hobject, hwithin, hlast⟩ := Json.objectText_of_read hread
  have hwhole : ∀ c ∈ toldLine "done", ¬ Json.Tears c := fun c hc htears => by
    have hbreak := List.all_eq_true.1 hunbroken c hc
    rw [htears.isLineBreak] at hbreak
    cases hbreak
  have hstatus : Table.last? "status" members ≠ some (.str "error") := fun herror =>
    hsuccess (Json.str.inj (Option.some.inj ((hlast "status").symm.trans herror)))
  have hrun : started (fun _ _ => (tellsString "done", ())) ["hermes", "--json"] () =
      .ok (tellsString "done") () := rfl
  have hgiven := (command_last_object hrun rfl (endsWith_tellsString "done") hobject (by decide)
    (by decide) hwithin hstatus).1 hwhole
  rwa [hlast "result"] at hgiven

/-- A run that went well is taken for a failure if the string that hermes tells of is a separator of
lines. -/
theorem torn_result_lost :
    ∃ members, Json.ObjectText (toldLine [0x2028]) members ∧
      EndsWith (tellsString [0x2028]).stdout (toldLine [0x2028]) ∧
      10 ∉ toldLine [0x2028] ∧ 13 ∉ toldLine [0x2028] ∧ ¬ Json.ExceedsLimit (toldLine [0x2028]) ∧
      Table.last? "status" members = some (.str "success") ∧
      Table.last? "result" members = some (.str [0x2028]) ∧
      command "hermes" (started fun _ _ => (tellsString [0x2028], ())) [] () =
        .error (.relay (.ofMessage (tellsString [0x2028]).stdout)) () := by
  have hread : Json.read (toldLine [0x2028]) = .ok (.obj (toldMembers [0x2028])) := by cbv
  have hnone : (tellsString [0x2028]).finalObject? = .ok none := by cbv
  have htext : (tellsString [0x2028]).failureText none = (tellsString [0x2028]).stdout := by cbv
  have hfailed : (tellsString [0x2028]).result =
      .error (.relay (.ofMessage (tellsString [0x2028]).stdout)) := by
    rw [ProcessResult.result, hnone, ← htext]
    rfl
  obtain ⟨members, hobject, hwithin, hlast⟩ := Json.objectText_of_read hread
  refine ⟨members, hobject, endsWith_tellsString _, by decide, by decide, hwithin,
    hlast "status", hlast "result", ?_⟩
  have hgiven : command "hermes" (started fun _ _ => (tellsString [0x2028], ())) [] () =
      Act.ofExcept (tellsString [0x2028]).result () := command_run []
  rwa [hfailed] at hgiven

end Hermes

end CrossChain
