import Mathlib.Data.List.Basic
import CrossChain.Text.Blank

/-!
# Lines

A text falls into lines at its line breaks.  What comes before a line feed and what comes after it
fall into lines for themselves (`Text.lines_append_feed`), and each line stands between line breaks
or the ends of the text (`Text.between_of_mem_lines`).
-/

namespace CrossChain

namespace Text

/-! ## Lines -/

theorem lines_feed (t : Text) : lines (10 :: t) = [] :: lines t := by
  cases t <;> rfl

theorem lines_break {c : CodePoint} {s : Text} (hc : c.isLineBreak = true)
    (hpair : ¬ (c = 13 ∧ s.head? = some 10)) : lines (c :: s) = [] :: lines s := by
  cases s with
  | nil => exact if_pos hc
  | cons d s => rw [lines, if_neg fun h => hpair ⟨h.1, congrArg some h.2⟩, if_pos hc]

/-- The lines with a code point in front of the first of them. -/
def beforeFirst (c : CodePoint) : List Text → List Text
  | [] => [[c]]
  | line :: more => (c :: line) :: more

theorem beforeFirst_append (c : CodePoint) {ls ms : List Text} (h : ls ≠ []) :
    beforeFirst c (ls ++ ms) = beforeFirst c ls ++ ms := by
  cases ls with
  | nil => exact absurd rfl h
  | cons line more => rfl

theorem lines_cons {c : CodePoint} (hc : c.isLineBreak = false) (s : Text) :
    lines (c :: s) = beforeFirst c (lines s) := by
  have hbreak : ¬ c.isLineBreak = true := Bool.eq_false_iff.1 hc
  have hreturn : c ≠ 13 := by
    rintro rfl
    cases hc
  cases s with
  | nil => exact if_neg hbreak
  | cons d s =>
    rw [lines, if_neg fun h => hreturn h.1, if_neg hbreak]
    cases lines (d :: s) <;> rfl

theorem lines_ne_nil {s : Text} (hs : s ≠ []) : lines s ≠ [] := by
  fun_cases lines s with
  | case1 => exact absurd rfl hs
  | _ => exact List.cons_ne_nil _ _

/-- A line ends with its line feed, and what comes after it are lines of their own. -/
theorem lines_append_feed (s t : Text) : lines (s ++ 10 :: t) = lines (s ++ [10]) ++ lines t := by
  induction s using lines.induct with
  | case1 => exact lines_feed t
  | case2 c hc =>
    by_cases hreturn : c = 13
    · subst hreturn
      rfl
    · have hbreak := fun s : Text => lines_break (s := s) hc fun h => hreturn h.1
      rw [List.singleton_append, List.singleton_append, hbreak, hbreak, lines_feed]
      rfl
  | case3 c hc =>
    have hline := lines_cons (Bool.eq_false_iff.2 hc)
    rw [List.singleton_append, List.singleton_append, hline, hline, lines_feed]
    rfl
  | case4 c d rest h ih =>
    obtain ⟨rfl, rfl⟩ := h
    show [] :: lines (rest ++ 10 :: t) = ([] :: lines (rest ++ [10])) ++ lines t
    rw [ih, List.cons_append]
  | case5 c d rest hpair hc ih =>
    have hbreak := fun s : Text => lines_break (s := d :: s) hc fun h =>
      hpair ⟨h.1, Option.some.inj h.2⟩
    simp only [List.cons_append] at ih ⊢
    rw [hbreak, hbreak, ih, List.cons_append]
  | case6 c d rest _ hc _ ih | case7 c d rest _ hc _ _ _ ih =>
    have hline := lines_cons (Bool.eq_false_iff.2 hc)
    have hne : d :: rest ++ [10] ≠ [] := nofun
    rw [List.cons_append, hline, ih, beforeFirst_append c (lines_ne_nil hne), ← hline]
    rfl

/-- Without line breaks in it a text is one line. -/
theorem lines_of_unbroken {s : Text} (hs : s ≠ []) (h : ∀ c ∈ s, c.isLineBreak = false) :
    lines s = [s] := by
  induction s with
  | nil => exact absurd rfl hs
  | cons c s ih =>
    obtain ⟨hc, hrest⟩ := List.forall_mem_cons.1 h
    rw [lines_cons hc]
    cases s with
    | nil => rfl
    | cons d s => rw [ih (List.cons_ne_nil d s) hrest, beforeFirst]

/-! ## Where lines stand -/

/-- A line stands between two parts of a text: there is no line break in it, and one on both sides
unless the text ends there. -/
structure Between (pre line post : Text) : Prop where
  unbroken : ∀ c ∈ line, c.isLineBreak = false
  before : ∀ c ∈ pre.getLast?, c.isLineBreak = true
  after : ∀ c ∈ post.head?, c.isLineBreak = true

/-- What comes after a line break and the line feed that belongs to it. -/
def afterBreak (c : CodePoint) (s : Text) : Text :=
  if c = 13 ∧ s.head? = some 10 then s.tail else s

theorem cons_eq_afterBreak {c : CodePoint} (hc : c.isLineBreak = true) (s : Text) :
    ∃ d e, c :: s = d ++ e :: afterBreak c s ∧ e.isLineBreak = true := by
  by_cases hpair : c = 13 ∧ s.head? = some 10
  · obtain ⟨rest, rfl⟩ := List.head?_eq_some_iff.1 hpair.2
    rw [afterBreak, if_pos hpair]
    exact ⟨[c], 10, rfl, rfl⟩
  · rw [afterBreak, if_neg hpair]
    exact ⟨[], c, rfl, hc⟩

/-- The first line ends at the first line break. -/
theorem lines_cut {x : Text} (hx : ∀ c ∈ x, c.isLineBreak = false) {c : CodePoint}
    (hc : c.isLineBreak = true) (y : Text) : lines (x ++ c :: y) = x :: lines (afterBreak c y) := by
  induction x with
  | nil =>
    by_cases hpair : c = 13 ∧ y.head? = some 10
    · obtain ⟨rest, rfl⟩ := List.head?_eq_some_iff.1 hpair.2
      rw [afterBreak, if_pos hpair, hpair.1]
      rfl
    · rw [afterBreak, if_neg hpair]
      exact lines_break hc hpair
  | cons d x ih =>
    obtain ⟨hd, hx⟩ := List.forall_mem_cons.1 hx
    rw [List.cons_append, lines_cons hd, ih hx, beforeFirst]

theorem lines_unbroken_feed {s : Text} (h : ∀ c ∈ s, c.isLineBreak = false) :
    lines (s ++ [10]) = [s] := lines_cut h rfl []

/-- There is no line break in a text, or a first one. -/
theorem unbroken_or_cut (s : Text) : (∀ c ∈ s, c.isLineBreak = false) ∨
    ∃ x c y, s = x ++ c :: y ∧ (∀ d ∈ x, d.isLineBreak = false) ∧ c.isLineBreak = true := by
  cases hfind : s.find? CodePoint.isLineBreak with
  | none => exact .inl fun c hc => Bool.eq_false_iff.2 (List.find?_eq_none.1 hfind c hc)
  | some c =>
    obtain ⟨hc, x, y, hs, hx⟩ := List.find?_eq_some_iff_append.1 hfind
    exact .inr ⟨x, c, y, hs, fun d hd => by simpa using hx d hd, hc⟩

/-- A text that starts without a line break starts with a part of its first line. -/
theorem exists_line_of_unbroken {u : Text} (hu : ∀ c ∈ u, c.isLineBreak = false) (hne : u ≠ [])
    (w : Text) : ∃ x, u ++ x ∈ lines (u ++ w) := by
  rcases unbroken_or_cut w with hw | ⟨x, c, y, rfl, hx, hc⟩
  · refine ⟨w, ?_⟩
    rw [lines_of_unbroken (List.append_ne_nil_of_left_ne_nil hne w)
      (List.forall_mem_append.2 ⟨hu, hw⟩)]
    exact List.mem_singleton.2 rfl
  · refine ⟨x, ?_⟩
    rw [← List.append_assoc, lines_cut (List.forall_mem_append.2 ⟨hu, hx⟩) hc]
    exact List.mem_cons_self

/-- Every line stands between line breaks or the ends of the text. -/
theorem between_of_mem_lines {s line : Text} (h : line ∈ lines s) :
    ∃ pre post, s = pre ++ (line ++ post) ∧ Between pre line post := by
  induction hsize : s.length using Nat.strongRecOn generalizing s with
  | ind size ih =>
    rcases unbroken_or_cut s with hs | ⟨x, c, y, rfl, hx, hc⟩
    · cases s with
      | nil => cases h
      | cons c s =>
        rw [lines_of_unbroken (List.cons_ne_nil c s) hs, List.mem_singleton] at h
        subst h
        exact ⟨[], [], (List.append_nil _).symm, hs, nofun, nofun⟩
    · rw [lines_cut hx hc] at h
      rcases List.mem_cons.1 h with rfl | h
      · exact ⟨[], c :: y, rfl, hx, nofun, fun d hd => by cases hd; exact hc⟩
      · obtain ⟨d, e, hcons, he⟩ := cons_eq_afterBreak hc y
        have hshorter : (afterBreak c y).length < size := by
          rw [← hsize, hcons]
          simp only [List.length_append, List.length_cons]
          omega
        obtain ⟨pre, post, hrest, hbetween⟩ := ih _ hshorter h rfl
        refine ⟨x ++ (d ++ e :: pre), post, ?_, hbetween.unbroken, ?_, hbetween.after⟩
        · rw [hcons, hrest]
          simp only [List.append_assoc, List.cons_append]
        · intro a ha
          rw [← List.append_assoc, List.getLast?_append_cons] at ha
          cases pre with
          | nil => cases ha; exact he
          | cons b pre => exact hbetween.before a (by rwa [List.getLast?_cons_cons] at ha)

/-- The line of a text without line breaks is all of it. -/
theorem Between.eq_nil {pre line post : Text} (h : Between pre line post)
    (hunbroken : ∀ c ∈ pre ++ (line ++ post), c.isLineBreak = false) : pre = [] ∧ post = [] := by
  have hnone : ∀ {c : CodePoint}, c ∈ pre ++ (line ++ post) → ¬ c.isLineBreak = true := fun hc =>
    Bool.eq_false_iff.1 (hunbroken _ hc)
  constructor
  · rcases List.eq_nil_or_concat pre with hpre | ⟨q, c, rfl⟩
    · exact hpre
    · exact absurd (h.before c (by simp)) (hnone (by simp))
  · cases post with
    | nil => rfl
    | cons c post => exact absurd (h.after c rfl) (hnone (by simp))

/-! ## Trimmed lines -/

theorem mem_of_head?_trim {s : Text} {c : CodePoint} (h : (trim s).head? = some c) : c ∈ s := by
  have hmem := List.mem_of_mem_head? h
  rw [trim, strip, stripRight, List.mem_reverse] at hmem
  have hleft := (List.dropWhile_suffix _).subset hmem
  rw [List.mem_reverse] at hleft
  exact (List.dropWhile_suffix _).subset hleft

end Text

end CrossChain
