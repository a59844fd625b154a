import CrossChain.Proofs.Json.Recognition
import CrossChain.Text.Blank

/-!
# Inside and outside of strings

Whoever goes through a JSON text from its start knows at every code point whether it stands in a
string (`Phase`).  A JSON text is gone through from the outside to the outside
(`Spells.exists_run`).  If it is gone through the wrong way round, as if it started inside of a
string, it takes its strings for what is between them; then it ends inside, and each of its names
starts with a code point that can follow a closing quote (`Spells.turned_of_run`).  So it is where a
text is torn apart at a line break that JSON allows in strings and the pieces are taken for JSON.
-/

namespace CrossChain

namespace Json

/-! ## Phases -/

/-- What may stand outside of strings: blanks, and visible ASCII but for the quote and the
backslash. -/
def bare (c : CodePoint) : Bool :=
  isSpace c || (decide (32 ≤ c.val) && decide (c.val < 127) && c != 34 && c != 92)

/-- What may stand next to a closing quote. -/
def follows (c : CodePoint) : Bool := isSpace c || c == 44 || c == 58 || c == 93 || c == 125

/-- The line breaks that may stand in strings as they are: next-line, and the separators of lines
and paragraphs. -/
def Tears (c : CodePoint) : Prop := c = 0x85 ∨ c = 0x2028 ∨ c = 0x2029

theorem Tears.isLineBreak {c : CodePoint} (h : Tears c) : c.isLineBreak = true := by
  rcases h with rfl | rfl | rfl <;> rfl

theorem Tears.le {c : CodePoint} (h : Tears c) : 127 ≤ c.val := by
  rcases h with rfl | rfl | rfl <;> decide

/-- Where one stands while going through a JSON text: outside of strings, inside of one, after the
backslash of an escape, or right after a closing quote. -/
inductive Phase
  | outside
  | inside
  | escaped
  | closed
  deriving DecidableEq, Repr

namespace Phase

/-- The phase after a code point, if that may stand there. -/
def next? : Phase → CodePoint → Option Phase
  | outside, c => if c = 34 then some inside else if bare c then some outside else none
  | inside, c =>
    if c = 34 then some closed
    else if c = 92 then some escaped
    else if 32 ≤ c.val then some inside
    else none
  | escaped, c => if 32 ≤ c.val ∧ c.val < 127 then some inside else none
  | closed, c => if follows c then some outside else none

/-- The phase after a text, if it can be gone through. -/
def run? (φ : Phase) (s : Text) : Option Phase := s.foldlM next? φ

/-- No string is open. -/
def Ended (φ : Phase) : Prop := φ = outside ∨ φ = closed

section Run

variable {φ χ ψ : Phase} {c : CodePoint} {s t : Text}

@[simp] theorem run?_nil (φ : Phase) : run? φ [] = some φ := rfl

theorem run?_cons (φ : Phase) (c : CodePoint) (s : Text) :
    run? φ (c :: s) = (next? φ c).bind (run? · s) := List.foldlM_cons

theorem run?_append (φ : Phase) (s t : Text) :
    run? φ (s ++ t) = (run? φ s).bind (run? · t) := List.foldlM_append

theorem run?_cons_of_next (h : next? φ c = some χ) (s : Text) : run? φ (c :: s) = run? χ s := by
  rw [run?_cons, h]
  rfl

theorem run?_append_of_run (h : run? φ s = some χ) (t : Text) : run? φ (s ++ t) = run? χ t := by
  rw [run?_append, h]
  rfl

theorem run?_cons_eq_some :
    run? φ (c :: s) = some ψ ↔ ∃ χ, next? φ c = some χ ∧ run? χ s = some ψ := by
  rw [run?_cons, Option.bind_eq_some_iff]

theorem run?_append_eq_some :
    run? φ (s ++ t) = some ψ ↔ ∃ χ, run? φ s = some χ ∧ run? χ t = some ψ := by
  rw [run?_append, Option.bind_eq_some_iff]

end Run

/-! ### Single code points -/

section Next

variable {φ ψ : Phase} {c : CodePoint}

theorem next?_outside (h : bare c = true) : next? outside c = some outside := by
  have hquote : c ≠ 34 := by
    rintro rfl
    cases h
  rw [next?, if_neg hquote, if_pos h]

theorem next?_inside (hquote : c ≠ 34) (hslash : c ≠ 92) (hvisible : 32 ≤ c.val) :
    next? inside c = some inside := by
  rw [next?, if_neg hquote, if_neg hslash, if_pos hvisible]

theorem bare_of_follows (h : follows c = true) : bare c = true := by
  simp only [follows, Bool.or_eq_true, beq_iff_eq] at h
  rcases h with (((hspace | rfl) | rfl) | rfl) | rfl
  · rw [bare, hspace, Bool.true_or]
  all_goals decide

/-- After a string or outside of one goes on what follows. -/
theorem Ended.next? (hφ : φ.Ended) (h : follows c = true) : next? φ c = some outside := by
  rcases hφ with rfl | rfl
  · exact next?_outside (bare_of_follows h)
  · rw [Phase.next?, if_pos h]

theorem visible_of_bare (h : bare c = true) : 32 ≤ c.val ∨ isSpace c = true := by
  rw [bare, Bool.or_eq_true] at h
  refine h.symm.imp_left fun h => ?_
  simp only [Bool.and_eq_true, decide_eq_true_eq] at h
  exact h.1.1.1

/-- Nowhere in a JSON text are there control characters other than the blanks. -/
theorem visible_of_next? (h : next? φ c = some ψ) : 32 ≤ c.val ∨ isSpace c = true := by
  cases φ with
  | outside =>
    rw [next?] at h
    split at h
    · next hquote => exact .inl (by rw [hquote]; decide)
    · split at h
      · next hbare => exact visible_of_bare hbare
      · cases h
  | inside =>
    rw [next?] at h
    split at h
    · next hquote => exact .inl (by rw [hquote]; decide)
    · split at h
      · next hslash => exact .inl (by rw [hslash]; decide)
      · split at h
        · next hvisible => exact .inl hvisible
        · cases h
  | escaped =>
    rw [next?] at h
    split at h
    · next hvisible => exact .inl hvisible.1
    · cases h
  | closed =>
    rw [next?] at h
    split at h
    · next hfollows => exact visible_of_bare (bare_of_follows hfollows)
    · cases h

/-- Beyond ASCII there are only strings. -/
theorem eq_inside_of_next? (hc : 127 ≤ c.val) (h : next? φ c = some ψ) :
    φ = inside ∧ ψ = inside := by
  have hne : ∀ d : CodePoint, d.val < 127 → c ≠ d := fun d hd he =>
    Nat.not_le.2 hd (he ▸ hc)
  have hbare : bare c = false := by
    simp [bare, isSpace, hne 32 (by decide), hne 9 (by decide), hne 10 (by decide),
      hne 13 (by decide), hc]
  cases φ with
  | inside =>
    rw [next?_inside (hne 34 (by decide)) (hne 92 (by decide)) (by omega)] at h
    exact ⟨rfl, (Option.some.inj h).symm⟩
  | outside =>
    rw [next?, if_neg (hne 34 (by decide)), hbare] at h
    cases h
  | escaped =>
    rw [next?, if_neg fun hascii => by omega] at h
    cases h
  | closed =>
    have hfollows : ¬ follows c = true := fun hf => by
      rw [bare_of_follows hf] at hbare
      cases hbare
    rw [next?, if_neg hfollows] at h
    cases h

theorem visible_of_run? {s : Text} (h : run? φ s = some ψ) :
    ∀ c ∈ s, 32 ≤ c.val ∨ isSpace c = true := by
  induction s generalizing φ with
  | nil => exact nofun
  | cons c s ih =>
    obtain ⟨χ, hnext, hrun⟩ := run?_cons_eq_some.1 h
    exact List.forall_mem_cons.2 ⟨visible_of_next? hnext, ih hrun⟩

end Next

/-! ### Texts without quotes and backslashes -/

section Bare

variable {φ ψ : Phase} {s : Text}

theorem run?_outside_of_bare (h : ∀ c ∈ s, bare c = true) : run? outside s = some outside := by
  induction s with
  | nil => rfl
  | cons c s ih =>
    obtain ⟨hc, hs⟩ := List.forall_mem_cons.1 h
    rw [run?_cons_of_next (next?_outside hc), ih hs]

theorem eq_inside_of_bare (h : ∀ c ∈ s, bare c = true) (hrun : run? inside s = some ψ) :
    ψ = inside := by
  induction s with
  | nil => exact (Option.some.inj hrun).symm
  | cons c s ih =>
    obtain ⟨hc, hs⟩ := List.forall_mem_cons.1 h
    obtain ⟨χ, hnext, hrun⟩ := run?_cons_eq_some.1 hrun
    have hquote : c ≠ 34 := by
      rintro rfl
      cases hc
    have hslash : c ≠ 92 := by
      rintro rfl
      cases hc
    rw [next?, if_neg hquote, if_neg hslash] at hnext
    split at hnext
    · cases hnext
      exact ih hs hrun
    · cases hnext

theorem bare_of_blank {b : Text} (hb : Blank b) : ∀ c ∈ b, bare c = true := fun c hc => by
  rw [bare, hb c hc, Bool.true_or]

theorem Ended.run?_blank (hφ : φ.Ended) {b : Text} (hb : Blank b) :
    ∃ χ, run? φ b = some χ ∧ χ.Ended := by
  cases b with
  | nil => exact ⟨φ, rfl, hφ⟩
  | cons c b =>
    obtain ⟨hc, hb⟩ := List.forall_mem_cons.1 hb
    have hfollows : follows c = true := by simp only [follows, hc, Bool.true_or]
    rw [run?_cons_of_next (hφ.next? hfollows)]
    exact ⟨outside, run?_outside_of_bare (bare_of_blank hb), .inl rfl⟩

end Bare

end Phase

/-! ## Words, numbers and strings -/

open Phase

theorem bare_of_digit {c : CodePoint} (h : c.isAsciiDigit = true) : bare c = true := by
  have hne : ∀ d : CodePoint, d.isAsciiDigit = false → (c != d) = true := fun d hd =>
    bne_iff_ne.2 (not_digit h hd)
  simp only [CodePoint.isAsciiDigit, Bool.and_eq_true, decide_eq_true_eq] at h
  simp only [bare, hne 34 rfl, hne 92 rfl, Bool.and_true, Bool.or_eq_true, Bool.and_eq_true,
    decide_eq_true_eq]
  omega

theorem bare_of_word {s : Text} {v : Json} (h : (s, v) ∈ words) : ∀ c ∈ s, bare c = true := by
  have hwords : words.all (fun w => w.1.all bare) = true := by decide
  exact List.all_eq_true.1 (List.all_eq_true.1 hwords _ h)

theorem bare_of_number {s : Text} {v : Json} (h : Number s v) : ∀ c ∈ s, bare c = true := by
  have hdigits : ∀ {digits : Text}, Digits digits → ∀ c ∈ digits, bare c = true := fun h c hc =>
    bare_of_digit (h.2 c hc)
  have hminus : ∀ negative, ∀ c ∈ minus negative, bare c = true := fun negative => by
    cases negative with
    | false => exact nofun
    | true => exact List.forall_mem_singleton.2 rfl
  have hfraction : ∀ {f digits : Text}, Fraction f digits → ∀ c ∈ f, bare c = true := fun h => by
    cases h with
    | none => exact nofun
    | some h => exact List.forall_mem_cons.2 ⟨rfl, hdigits h⟩
  have hsign : ∀ {sign : Text} {negative : Bool}, Sign sign negative → ∀ c ∈ sign, bare c = true :=
    fun h => by
      cases h with
      | none => exact nofun
      | plus | minus => exact List.forall_mem_singleton.2 rfl
  have hexponent : ∀ {e : Text} {n : Int}, Exponent e n → ∀ c ∈ e, bare c = true := fun h => by
    cases h with
    | none => exact nofun
    | some hmark hs h =>
      refine List.forall_mem_cons.2 ⟨?_, List.forall_mem_append.2 ⟨hsign hs, hdigits h⟩⟩
      rcases hmark with rfl | rfl <;> rfl
  cases h with
  | int negative hwhole =>
    exact List.forall_mem_append.2 ⟨hminus negative, hdigits hwhole.1⟩
  | float negative hwhole hf he _ =>
    simp only [List.forall_mem_append]
    exact ⟨hminus negative, hdigits hwhole.1, hfraction hf, hexponent he⟩

theorem next?_inside_of_hex {c : CodePoint} {n : Nat} (h : c.hexValue? = some n) :
    next? inside c = some inside := by
  have hranges := ranges_of_hexValue? h
  have hne : ∀ d : CodePoint, d.hexValue? = none → c ≠ d := fun d hd he => by
    rw [he, hd] at h
    cases h
  exact next?_inside (hne 34 rfl) (hne 92 rfl) (by omega)

theorem run?_escape {a b c d : CodePoint} {n : Nat} (h : hex4? a b c d = some n) (s : Text) :
    run? inside (92 :: 117 :: a :: b :: c :: d :: s) = run? inside s := by
  simp only [hex4?, Option.bind_eq_bind, Option.bind_eq_some_iff] at h
  obtain ⟨_, ha, _, hb, _, hc, _, hd, -⟩ := h
  rw [run?_cons_of_next (χ := escaped) rfl, run?_cons_of_next (χ := inside) rfl,
    run?_cons_of_next (next?_inside_of_hex ha), run?_cons_of_next (next?_inside_of_hex hb),
    run?_cons_of_next (next?_inside_of_hex hc), run?_cons_of_next (next?_inside_of_hex hd)]

/-- What stands between the quotes of a string keeps inside. -/
theorem Chars.run?_inside {s t : Text} (h : Chars s t) : run? inside s = some inside := by
  induction h with
  | nil => rfl
  | plain notQuote notSlash visible _ ih =>
    rw [run?_cons_of_next (next?_inside notQuote notSlash visible), ih]
  | @short e c s t escape _ ih =>
    have hletter : next? escaped e = some inside := by
      simp only [shortEscape?] at escape
      repeat' split at escape
      all_goals grind [next?]
    rw [run?_cons_of_next (χ := escaped) rfl, run?_cons_of_next hletter, ih]
  | unicode escape _ _ ih | lone escape _ _ _ ih => rw [run?_escape escape, ih]
  | pair escape _ escape' _ _ ih => rw [run?_escape escape, run?_escape escape', ih]

/-- Taken for what is between strings, it keeps outside if it can be gone through at all. -/
theorem Chars.eq_outside {s t : Text} (h : Chars s t) {ψ : Phase}
    (hrun : run? outside s = some ψ) : ψ = outside := by
  induction h with
  | nil => exact (Option.some.inj hrun).symm
  | @plain c s t notQuote notSlash visible rest ih =>
    obtain ⟨χ, hnext, hrun⟩ := run?_cons_eq_some.1 hrun
    rw [next?, if_neg notQuote] at hnext
    split at hnext
    · cases hnext
      exact ih hrun
    · cases hnext
  | short | unicode | pair | lone =>
    obtain ⟨χ, hnext, -⟩ := run?_cons_eq_some.1 hrun
    cases hnext

/-- The string starts with a code point that can follow a closing quote. -/
def StartsTurned (s : Text) : Prop := ∃ c ∈ s.head?, follows c = true

/-- A string that is gone through the wrong way round starts with what follows a closing quote, and
ends inside. -/
theorem Chars.turned_of_run {s t : Text} (h : Chars s t) {ψ : Phase}
    (hrun : run? inside (34 :: (s ++ [34])) = some ψ) : ψ = inside ∧ StartsTurned t := by
  rw [run?_cons_of_next (χ := closed) rfl] at hrun
  obtain ⟨χ, hchars, hquote⟩ := run?_append_eq_some.1 hrun
  cases h with
  | nil =>
    cases hchars
    cases hquote
  | @plain c s t notQuote notSlash visible rest =>
    obtain ⟨χ', hnext, hrest⟩ := run?_cons_eq_some.1 hchars
    rw [next?] at hnext
    split at hnext
    · next hfollows =>
      cases hnext
      obtain rfl := rest.eq_outside hrest
      exact ⟨(Option.some.inj hquote).symm, c, rfl, hfollows⟩
    · cases hnext
  | short | unicode | pair | lone =>
    obtain ⟨χ', hnext, -⟩ := run?_cons_eq_some.1 hchars
    cases hnext

/-! ## Whole texts -/

section Whole

variable {p : Part} {s t : Text} {φ ψ : Phase} {c : CodePoint}

/-- A part that starts outside, between what it starts with and what follows it. -/
theorem run?_enclosed {opens : CodePoint} (hopens : bare opens = true)
    (hrun : run? outside s = some φ) (hφ : φ.Ended) (hc : follows c = true) :
    run? outside (opens :: (s ++ [c])) = some outside := by
  rw [run?_cons_of_next (next?_outside hopens), run?_append_of_run hrun,
    run?_cons_of_next (hφ.next? hc), run?_nil]

/-- A JSON text is gone through from the outside, and no string is open at its end. -/
theorem Spells.exists_run (h : Spells p s) : ∃ ψ, run? outside s = some ψ ∧ ψ.Ended := by
  have hblank : ∀ {b : Text}, Blank b → run? outside b = some outside := fun hb =>
    run?_outside_of_bare (bare_of_blank hb)
  have hstring : ∀ {k name : Text}, Chars k name → ∀ rest,
      run? outside (34 :: (k ++ 34 :: rest)) = run? closed rest := fun hk rest => by
    rw [run?_cons_of_next (χ := inside) rfl, run?_append_of_run hk.run?_inside,
      run?_cons_of_next (χ := closed) rfl]
  induction h with
  | word h => exact ⟨outside, run?_outside_of_bare (bare_of_word h), .inl rfl⟩
  | number h => exact ⟨outside, run?_outside_of_bare (bare_of_number h), .inl rfl⟩
  | string h => exact ⟨closed, hstring h [], .inr rfl⟩
  | emptyArray hb | emptyObject hb =>
    exact ⟨outside, run?_enclosed rfl (hblank hb) (.inl rfl) rfl, .inl rfl⟩
  | array _ ih | object _ ih =>
    obtain ⟨φ, hrun, hφ⟩ := ih
    exact ⟨outside, run?_enclosed rfl hrun hφ rfl, .inl rfl⟩
  | element hb _ hb' ih =>
    obtain ⟨φ, hrun, hφ⟩ := ih
    rw [run?_append_of_run (hblank hb), run?_append_of_run hrun]
    exact hφ.run?_blank hb'
  | lastElement _ ih | lastMember _ ih => exact ih
  | moreElements _ _ ih ihs | moreMembers _ _ ih ihs =>
    obtain ⟨φ, hrun, hφ⟩ := ih
    rw [run?_append_of_run hrun, run?_cons_of_next (hφ.next? rfl)]
    exact ihs
  | member hb hk hb' _ ih =>
    obtain ⟨φ, hrun, hφ⟩ := Ended.run?_blank (.inr rfl) hb'
    rw [run?_append_of_run (hblank hb), hstring hk, run?_append_of_run hrun,
      run?_cons_of_next (hφ.next? rfl)]
    exact ih

/-- The names of a part start with what can follow a closing quote. -/
def Turned : Part → Prop
  | .member m => StartsTurned m.1
  | .members ms => ∀ m ∈ ms, StartsTurned m.1
  | _ => True

/-- A part that is gone through from the inside, between what it starts with and what follows it. -/
theorem eq_inside_of_enclosed {opens : CodePoint} (hopens : next? inside opens = some inside)
    (hs : ∀ φ, run? inside s = some φ → φ = inside) (hc : next? inside c = some inside)
    (hrun : run? inside (opens :: (s ++ [c])) = some ψ) : ψ = inside := by
  rw [run?_cons_of_next hopens] at hrun
  obtain ⟨φ, hpart, hlast⟩ := run?_append_eq_some.1 hrun
  obtain rfl := hs φ hpart
  rw [run?_cons_of_next hc] at hlast
  exact (Option.some.inj hlast).symm

/-- A JSON text that is gone through as if it started inside of a string ends inside of one. -/
theorem Spells.turned_of_run (h : Spells p s) (hrun : run? inside s = some ψ) :
    ψ = inside ∧ Turned p := by
  have hblank : ∀ {b : Text}, Blank b → ∀ φ, run? inside b = some φ → φ = inside := fun hb _ =>
    eq_inside_of_bare (bare_of_blank hb)
  induction h generalizing ψ with
  | word h => exact ⟨eq_inside_of_bare (bare_of_word h) hrun, trivial⟩
  | number h => exact ⟨eq_inside_of_bare (bare_of_number h) hrun, trivial⟩
  | string h => exact ⟨(h.turned_of_run hrun).1, trivial⟩
  | emptyArray hb | emptyObject hb =>
    exact ⟨eq_inside_of_enclosed rfl (hblank hb) rfl hrun, trivial⟩
  | array _ ih | object _ ih =>
    exact ⟨eq_inside_of_enclosed rfl (fun _ h => (ih h).1) rfl hrun, trivial⟩
  | element hb _ hb' ih =>
    obtain ⟨φ, hfirst, hrun⟩ := run?_append_eq_some.1 hrun
    obtain rfl := hblank hb φ hfirst
    obtain ⟨φ, hvalue, hlast⟩ := run?_append_eq_some.1 hrun
    obtain ⟨rfl, -⟩ := ih hvalue
    exact ⟨hblank hb' ψ hlast, trivial⟩
  | lastElement _ ih => exact ⟨(ih hrun).1, trivial⟩
  | moreElements _ _ ih ihs =>
    obtain ⟨φ, hfirst, hrun⟩ := run?_append_eq_some.1 hrun
    obtain ⟨rfl, -⟩ := ih hfirst
    exact ⟨(ihs hrun).1, trivial⟩
  | member hb hk hb' _ ih =>
    obtain ⟨φ, hfirst, hrun⟩ := run?_append_eq_some.1 hrun
    obtain rfl := hblank hb φ hfirst
    rw [← List.singleton_append (l := _ ++ 58 :: _), ← List.append_assoc, ← List.cons_append]
      at hrun
    obtain ⟨φ, hname, hrun⟩ := run?_append_eq_some.1 hrun
    obtain ⟨rfl, hstarts⟩ := hk.turned_of_run hname
    obtain ⟨φ, hsecond, hrun⟩ := run?_append_eq_some.1 hrun
    obtain rfl := hblank hb' φ hsecond
    exact ⟨(ih hrun).1, hstarts⟩
  | lastMember _ ih =>
    obtain ⟨hψ, hstarts⟩ := ih hrun
    exact ⟨hψ, List.forall_mem_singleton.2 hstarts⟩
  | moreMembers _ _ ih ihs =>
    obtain ⟨φ, hfirst, hrun⟩ := run?_append_eq_some.1 hrun
    obtain ⟨rfl, hstarts⟩ := ih hfirst
    obtain ⟨hψ, hlater⟩ := ihs hrun
    exact ⟨hψ, List.forall_mem_cons.2 ⟨hstarts, hlater⟩⟩

/-- The line breaks of a JSON text are line feeds, carriage returns, and three that stand in strings
as they are. -/
theorem tears_of_run (hrun : run? φ s = some ψ) (hc : c ∈ s) (hbreak : c.isLineBreak = true)
    (hfeed : c ≠ 10) (hreturn : c ≠ 13) : Tears c := by
  simp only [CodePoint.isLineBreak, Bool.or_eq_true, Bool.and_eq_true, decide_eq_true_eq,
    beq_iff_eq] at hbreak
  have hvisible : 32 ≤ c.val := by
    rcases visible_of_run? hrun c hc with hvisible | hspace
    · exact hvisible
    · rcases isSpace_iff.1 hspace with rfl | rfl | rfl | rfl
      · decide
      · exact absurd hbreak (by decide)
      · exact absurd rfl hfeed
      · exact absurd rfl hreturn
  have hval : c.val = 0x85 ∨ c.val = 0x2028 ∨ c.val = 0x2029 := by omega
  exact hval.imp Fin.ext (Or.imp Fin.ext Fin.ext)

/-! ### Objects -/

variable {members : List (Text × Json)}

theorem ObjectText.exists_run (h : ObjectText s members) :
    ∃ ψ, run? outside s = some ψ ∧ ψ.Ended := by
  obtain ⟨b, t, b', rfl, hb, hb', ht⟩ := h
  have hvalue : ∃ v, Spells (.value v) (123 :: (t ++ [125])) := by
    rcases ht with ⟨-, ht⟩ | ht
    · exact ⟨_, .emptyObject ht⟩
    · exact ⟨_, .object ht⟩
  obtain ⟨v, hv⟩ := hvalue
  have hrun := (Spells.element hb hv hb').exists_run
  rwa [List.cons_append, List.append_assoc, List.singleton_append] at hrun

theorem ObjectText.turned_of_run (h : ObjectText s members) (hrun : run? inside s = some ψ) :
    ∀ m ∈ members, StartsTurned m.1 := by
  obtain ⟨b, t, b', rfl, hb, -, ⟨rfl, -⟩ | ht⟩ := h
  · exact nofun
  · obtain ⟨φ, hfirst, hrun⟩ := run?_append_eq_some.1 hrun
    obtain rfl := eq_inside_of_bare (bare_of_blank hb) hfirst
    rw [run?_cons_of_next (χ := inside) rfl] at hrun
    obtain ⟨φ, hmembers, -⟩ := run?_append_eq_some.1 hrun
    exact (ht.turned_of_run hmembers).2

end Whole

end Json

end CrossChain
