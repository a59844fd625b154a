import CrossChain.Proofs.Json.Numbers
import CrossChain.Proofs.Json.StringSyntax

/-!
# Words and numbers that are spelled

The reader takes a word or a number exactly where one is spelled (`sound_readAtom`,
`readAtom_word`, `complete_readNumber`).  It is stopped by its limit exactly where an integer has
too many digits (`readAtom_stopped`).
-/

namespace CrossChain

namespace Json

/-! ## Numbers -/

/-- A run of digits, with what follows it. -/
theorem exists_run (s : Text) : ∃ digits t, s = digits ++ t ∧
    s.takeWhile CodePoint.isAsciiDigit = digits ∧ (∀ c ∈ digits, c.isAsciiDigit = true) ∧
    ∀ c ∈ t.head?, c.isAsciiDigit = false := by
  refine ⟨_, s.dropWhile CodePoint.isAsciiDigit, List.takeWhile_append_dropWhile.symm, rfl,
    List.all_eq_true.1 List.all_takeWhile, fun c hc => ?_⟩
  have hnot := List.head?_dropWhile_not CodePoint.isAsciiDigit s
  rw [Option.mem_def.1 hc] at hnot
  simpa using hnot

theorem not_digit {c d : CodePoint} (hc : c.isAsciiDigit = true) (hd : d.isAsciiDigit = false) :
    c ≠ d := by
  rintro rfl
  rw [hc] at hd
  cases hd

theorem Digits.cons {s : Text} (h : Digits s) :
    ∃ c t, s = c :: t ∧ c.isAsciiDigit = true ∧ ∀ d ∈ t, d.isAsciiDigit = true := by
  cases s with
  | nil => exact absurd rfl h.1
  | cons c t =>
    obtain ⟨hc, ht⟩ := List.forall_mem_cons.1 h.2
    exact ⟨c, t, rfl, hc, ht⟩

/-! ### The whole part -/

theorem integerDigits_append {whole s : Text} (h : Whole whole)
    (hs : ∀ c ∈ s.head?, c.isAsciiDigit = false) : integerDigits (whole ++ s) = whole := by
  obtain ⟨c, t, rfl, hc, ht⟩ := h.1.cons
  by_cases hzero : c = 48
  · rw [h.2 (congrArg some hzero)]
    rfl
  · rw [List.cons_append, integerDigits]
    · exact Text.takeWhile_append_of_head (List.forall_mem_cons.2 ⟨hc, ht⟩) hs
    · exact fun tail he => hzero (List.cons.inj he).1

theorem whole_zero : Whole [48] :=
  ⟨⟨List.cons_ne_nil _ _, List.forall_mem_singleton.2 rfl⟩, fun _ => rfl⟩

/-- The digits that are taken for the whole part, if there are any, are one.  A digit can only
follow a zero. -/
theorem integerDigits_cut {s : Text} (h : integerDigits s ≠ []) :
    ∃ whole t, s = whole ++ t ∧ integerDigits s = whole ∧ Whole whole ∧
      (whole ≠ [48] → ∀ c ∈ t.head?, c.isAsciiDigit = false) := by
  by_cases hzero : ∃ t, s = 48 :: t
  · obtain ⟨t, rfl⟩ := hzero
    exact ⟨[48], t, rfl, rfl, whole_zero, fun hne => absurd rfl hne⟩
  · have heq : integerDigits s = s.takeWhile CodePoint.isAsciiDigit := by
      rw [integerDigits]
      exact fun t ht => hzero ⟨t, ht⟩
    obtain ⟨digits, t, hs, htake, hdigits, hhead⟩ := exists_run s
    rw [heq, htake] at h ⊢
    refine ⟨digits, t, hs, rfl, ⟨⟨h, hdigits⟩, fun h48 => ?_⟩, fun _ => hhead⟩
    cases digits with
    | nil => exact absurd rfl h
    | cons c digits =>
      cases h48
      exact absurd ⟨digits ++ t, hs⟩ hzero

/-! ### The fraction -/

/-- What is left after a fraction. -/
def afterFraction (s : Text) : Text :=
  if (fractionDigits s).isEmpty then s else s.drop (1 + (fractionDigits s).length)

theorem fractionDigits_none {s : Text} (h : ∀ c ∈ s.head?, c ≠ 46) : fractionDigits s = [] := by
  cases s with
  | nil => rfl
  | cons c s =>
    rw [fractionDigits]
    exact fun t ht => h c rfl (List.cons.inj ht).1

theorem fractionDigits_append {f digits t : Text} (h : Fraction f digits)
    (ht : ∀ c ∈ t.head?, c.isAsciiDigit = false ∧ c ≠ 46) :
    fractionDigits (f ++ t) = digits ∧ afterFraction (f ++ t) = t := by
  cases h with
  | none =>
    have hnone := fractionDigits_none fun c hc => (ht c hc).2
    rw [afterFraction, List.nil_append, hnone]
    exact ⟨rfl, rfl⟩
  | some h =>
    have hsome : fractionDigits (46 :: digits ++ t) = digits :=
      Text.takeWhile_append_of_head h.2 fun c hc => (ht c hc).1
    refine ⟨hsome, ?_⟩
    rw [afterFraction, hsome, if_neg (by simpa using h.1), Nat.add_comm, List.cons_append,
      List.drop_succ_cons, List.drop_left]

theorem fraction_cut (s : Text) :
    ∃ f, Fraction f (fractionDigits s) ∧ s = f ++ afterFraction s := by
  cases hdigits : fractionDigits s with
  | nil =>
    refine ⟨[], .none, ?_⟩
    rw [afterFraction, hdigits]
    rfl
  | cons d digits =>
    have hpoint : ∃ t, s = 46 :: t := by
      by_contra hne
      have hnone : fractionDigits s = [] := fractionDigits_none fun c hc he => hne <| by
        cases s with
        | nil => cases hc
        | cons c' t =>
          cases hc
          exact ⟨t, by rw [he]⟩
      rw [hnone] at hdigits
      cases hdigits
    obtain ⟨t, rfl⟩ := hpoint
    obtain ⟨run, t', rfl, htake, hrun, -⟩ := exists_run t
    have hrun' : run = d :: digits := htake.symm.trans hdigits
    refine ⟨46 :: run, ?_, ?_⟩
    · rw [← hrun']
      exact .some ⟨by rw [hrun']; exact List.cons_ne_nil _ _, hrun⟩
    · rw [afterFraction, hdigits, if_neg (by simp), ← hrun', Nat.add_comm, List.drop_succ_cons,
        List.drop_left, List.cons_append]

theorem Fraction.eq_nil {f digits : Text} (h : Fraction f digits) (hf : f = []) :
    digits = [] := by
  cases h with
  | none => rfl
  | some h => cases hf

/-! ### The exponent -/

theorem signed_append {sign digits : Text} {negative : Bool} (hsign : Sign sign negative)
    (h : Digits digits) (t : Text) :
    Numeral.signed (sign ++ (digits ++ t)) = (negative, digits ++ t) := by
  cases hsign with
  | plus | minus => rfl
  | none =>
    obtain ⟨c, rest, rfl, hc, -⟩ := h.cons
    rw [List.nil_append, List.cons_append, Numeral.signed]
    · exact fun r hr => not_digit hc (by decide) (List.cons.inj hr).1
    · exact fun r hr => not_digit hc (by decide) (List.cons.inj hr).1

theorem signed_cut (s : Text) :
    ∃ sign negative tail, Sign sign negative ∧ s = sign ++ tail ∧
      Numeral.signed s = (negative, tail) := by
  by_cases hplus : ∃ r, s = 43 :: r
  · obtain ⟨r, rfl⟩ := hplus
    exact ⟨_, _, r, .plus, rfl, rfl⟩
  by_cases hminus : ∃ r, s = 45 :: r
  · obtain ⟨r, rfl⟩ := hminus
    exact ⟨_, _, r, .minus, rfl, rfl⟩
  refine ⟨_, _, s, .none, rfl, ?_⟩
  rw [Numeral.signed]
  · exact fun r hr => hplus ⟨r, hr⟩
  · exact fun r hr => hminus ⟨r, hr⟩

/-- The digits of an exponent, after the sign that stands before them. -/
theorem exponentPart_signed {mark : CodePoint} (hmark : mark = 101 ∨ mark = 69)
    {negative : Bool} {sign tail digits : Text}
    (hsigned : Numeral.signed (sign ++ tail) = (negative, tail))
    (htake : tail.takeWhile CodePoint.isAsciiDigit = digits) :
    exponentPart (mark :: (sign ++ tail)) =
      if digits.isEmpty then none
      else some (signedValue negative digits, (mark :: (sign ++ digits)).length) := by
  have hsize : 1 + ((sign ++ tail).length - tail.length) + digits.length =
      (mark :: (sign ++ digits)).length := by
    simp only [List.length_cons, List.length_append]
    omega
  rw [exponentPart.eq_def, ← hsize]
  simp only [if_pos hmark, hsigned, htake]
  rfl

theorem exponentPart_append {e t : Text} {n : Int} (h : Exponent e n) (he : e ≠ [])
    (ht : ∀ c ∈ t.head?, c.isAsciiDigit = false) :
    exponentPart (e ++ t) = some (n, e.length) := by
  cases h with
  | none => exact absurd rfl he
  | some hmark hsign h =>
    rw [List.cons_append, List.append_assoc,
      exponentPart_signed hmark (signed_append hsign h t) (Text.takeWhile_append_of_head h.2 ht),
      if_neg (by simpa using h.1)]

theorem exponent_cut {s : Text} {n : Int} {size : Nat} (h : exponentPart s = some (n, size)) :
    ∃ e, Exponent e n ∧ e ≠ [] ∧ s = e ++ s.drop size := by
  cases s with
  | nil => cases h
  | cons mark s =>
    by_cases hmark : mark = 101 ∨ mark = 69
    · obtain ⟨sign, negative, tail, hsign, rfl, hsigned⟩ := signed_cut s
      obtain ⟨digits, t, rfl, htake, hdigits, -⟩ := exists_run tail
      rw [exponentPart_signed hmark hsigned htake] at h
      by_cases hempty : digits.isEmpty
      · rw [if_pos hempty] at h
        cases h
      · rw [if_neg hempty, Option.some.injEq, Prod.mk.injEq] at h
        obtain ⟨rfl, rfl⟩ := h
        refine ⟨mark :: (sign ++ digits), .some hmark hsign ⟨by simpa using hempty, hdigits⟩,
          List.cons_ne_nil _ _, ?_⟩
        rw [← List.append_assoc, ← List.cons_append, List.drop_left]
    · rw [exponentPart, if_neg hmark] at h
      cases h

/-- Where digits of an exponent come next, the exponent is not none. -/
theorem exponentPart_ne_none {e t : Text} {n : Int} (h : Exponent e n) (he : e ≠ []) :
    exponentPart (e ++ t) ≠ none := by
  cases h with
  | none => exact absurd rfl he
  | @some mark sign digits negative hmark hsign h =>
    have hdigits : (digits ++ t).takeWhile CodePoint.isAsciiDigit =
        digits ++ t.takeWhile CodePoint.isAsciiDigit := List.takeWhile_append_of_pos h.2
    rw [List.cons_append, List.append_assoc,
      exponentPart_signed hmark (signed_append hsign h t) hdigits, if_neg (by simp [h.1])]
    exact nofun

theorem integerEnds_iff {s : Text} : IntegerEnds s ↔
    (∀ c ∈ s.head?, c.isAsciiDigit = false) ∧ fractionDigits s = [] ∧ exponentPart s = none := by
  constructor
  · intro h
    obtain ⟨f, hf, hcut⟩ := fraction_cut s
    obtain rfl := h.fraction hf hcut
    refine ⟨h.digit, ?_, ?_⟩
    · exact hf.eq_nil rfl
    · cases hexponent : exponentPart s with
      | none => rfl
      | some p =>
        obtain ⟨e, he, hne, hcut⟩ := exponent_cut hexponent
        exact absurd (h.exponent he hcut) hne
  · rintro ⟨hdigit, hfraction, hexponent⟩
    refine ⟨hdigit, ?_, ?_⟩
    · rintro f digits t (_ | h) rfl
      · rfl
      · have hdigits : fractionDigits (46 :: (digits ++ t)) =
            digits ++ t.takeWhile CodePoint.isAsciiDigit := List.takeWhile_append_of_pos h.2
        rw [List.cons_append, hdigits] at hfraction
        exact absurd (List.append_eq_nil_iff.1 hfraction).1 h.1
    · rintro e t n h rfl
      by_contra hne
      exact exponentPart_ne_none h hne hexponent

/-! ### Numbers -/

/-- The rest of a number, after its whole part. -/
def numberAfter (negative : Bool) (whole s : Text) : Except Stop (Json × Text) :=
  match exponentPart (afterFraction s) with
  | some (exponent, size) =>
    .ok (.float (.ofDecimal negative (Text.digitsValue (whole ++ fractionDigits s))
      (exponent - (fractionDigits s).length)), (afterFraction s).drop size)
  | none =>
    if (fractionDigits s).isEmpty then
      if Numeral.maxDigits < whole.length then .error (.tooLong whole.length)
      else .ok (.int (signedValue negative whole), s)
    else
      .ok (.float (.ofDecimal negative (Text.digitsValue (whole ++ fractionDigits s))
        (-((fractionDigits s).length : Int))), afterFraction s)

/-- The sign in front of a number, and what follows it. -/
def cutMinus : Text → Bool × Text
  | 45 :: rest => (true, rest)
  | rest => (false, rest)

theorem cutMinus_append {negative : Bool} {c : CodePoint} (hc : c.isAsciiDigit = true) (t : Text) :
    cutMinus (minus negative ++ c :: t) = (negative, c :: t) := by
  cases negative with
  | true => rfl
  | false =>
    rw [minus, if_neg Bool.false_ne_true, List.nil_append, cutMinus]
    exact fun rest hrest => not_digit hc (by decide) (List.cons.inj hrest).1

theorem exists_cutMinus (s : Text) :
    ∃ negative rest, s = minus negative ++ rest ∧ cutMinus s = (negative, rest) := by
  by_cases hminus : ∃ r, s = 45 :: r
  · obtain ⟨r, rfl⟩ := hminus
    exact ⟨true, r, rfl, rfl⟩
  · refine ⟨false, s, rfl, ?_⟩
    rw [cutMinus]
    exact fun r hr => hminus ⟨r, hr⟩

/-- A number is read by its sign, its whole part and the rest. -/
theorem readNumber_whole {s whole rest : Text} {negative : Bool}
    (hsign : cutMinus s = (negative, whole ++ rest)) (hwhole : whole ≠ [])
    (hdigits : integerDigits (whole ++ rest) = whole) :
    readNumber s = numberAfter negative whole rest := by
  unfold readNumber
  split
  next negative' rest' hsign' =>
  obtain ⟨rfl, rfl⟩ := Prod.mk.inj (hsign'.symm.trans hsign)
  have hsome : whole.isEmpty = false := List.isEmpty_eq_false_iff.2 hwhole
  simp only [hdigits, hsome, List.drop_left, Bool.false_eq_true, if_false]
  rw [numberAfter, afterFraction]
  cases exponentPart (if (fractionDigits rest).isEmpty = true then rest
      else rest.drop (1 + (fractionDigits rest).length)) with
  | some p => rfl
  | none =>
    by_cases hfraction : (fractionDigits rest).isEmpty = true
    · simp only [if_pos hfraction, Numeral.ofDigits]
      by_cases hlong : Numeral.maxDigits < whole.length
      · simp only [if_pos hlong]
      · simp only [if_neg hlong]
        rfl
    · simp only [if_neg hfraction]

/-- A text is cut where a number starts with its sign and whole part, or there is none. -/
theorem readNumber_cases (s : Text) :
    (∃ left, readNumber s = .error (.fault .value left)) ∨
      ∃ negative whole rest, s = minus negative ++ (whole ++ rest) ∧ Whole whole ∧
        (whole ≠ [48] → ∀ c ∈ rest.head?, c.isAsciiDigit = false) ∧
        readNumber s = numberAfter negative whole rest := by
  obtain ⟨negative, rest, hs, hsign⟩ := exists_cutMinus s
  by_cases hnone : integerDigits rest = []
  · refine .inl ⟨s.length, ?_⟩
    unfold readNumber
    split
    next negative' rest' hsign' =>
    obtain ⟨rfl, rfl⟩ := Prod.mk.inj (hsign'.symm.trans hsign)
    simp only [hnone, List.isEmpty_nil, if_true]
  · obtain ⟨whole, t, rfl, hdigits, hwhole, hhead⟩ := integerDigits_cut hnone
    exact .inr ⟨negative, whole, t, hs, hwhole, hhead,
      readNumber_whole hsign hwhole.1.1 hdigits⟩

theorem sound_readNumber {s rest : Text} {v : Json} (h : readNumber s = .ok (v, rest)) :
    ∃ t, s = t ++ rest ∧ Number t v := by
  rcases readNumber_cases s with ⟨left, herror⟩ | ⟨negative, whole, tail, rfl, hwhole, -, hread⟩
  · rw [herror] at h
    cases h
  rw [hread, numberAfter] at h
  obtain ⟨f, hf, hcut⟩ := fraction_cut tail
  cases hexponent : exponentPart (afterFraction tail) with
  | some p =>
    obtain ⟨n, size⟩ := p
    obtain ⟨e, he, hne, hcut'⟩ := exponent_cut hexponent
    rw [hexponent] at h
    cases h
    refine ⟨minus negative ++ (whole ++ (f ++ e)), ?_, .float negative hwhole hf he ?_⟩
    · simp only [List.append_assoc, ← hcut', ← hcut]
    · exact List.append_ne_nil_of_right_ne_nil f hne
  | none =>
    rw [hexponent] at h
    simp only at h
    by_cases hfraction : (fractionDigits tail).isEmpty = true
    · rw [if_pos hfraction] at h
      split at h
      · cases h
      · cases h
        exact ⟨minus negative ++ whole, (List.append_assoc _ _ _).symm, .int negative hwhole⟩
    · rw [if_neg hfraction] at h
      cases h
      have hsome : f ++ [] ≠ [] := by
        rw [List.append_nil]
        rintro rfl
        exact hfraction (by rw [hf.eq_nil rfl]; rfl)
      have hfloat := Number.float negative hwhole hf .none hsome
      rw [List.append_nil, Int.zero_sub] at hfloat
      exact ⟨minus negative ++ (whole ++ f), by simp only [List.append_assoc, ← hcut], hfloat⟩

/-- What is read after a sign and a whole part. -/
theorem readNumber_append {whole rest : Text} (negative : Bool) (h : Whole whole)
    (hrest : ∀ c ∈ rest.head?, c.isAsciiDigit = false) :
    readNumber (minus negative ++ (whole ++ rest)) = numberAfter negative whole rest := by
  refine readNumber_whole ?_ h.1.1 (integerDigits_append h hrest)
  obtain ⟨c, t, rfl, hc, -⟩ := h.1.cons
  exact cutMinus_append hc _

theorem Exponent.head {e rest : Text} {n : Int} (h : Exponent e n) (hrest : Ends rest) :
    ∀ c ∈ (e ++ rest).head?, c.isAsciiDigit = false ∧ c ≠ 46 := by
  intro c hc
  cases h with
  | none =>
    cases rest with
    | nil => cases hc
    | cons d rest =>
      cases hc
      exact ⟨hrest.head.1, hrest.head.2.1⟩
  | some hmark hsign h =>
    cases hc
    rcases hmark with rfl | rfl <;> exact ⟨rfl, by decide⟩

theorem Exponent.eq_zero {e : Text} {n : Int} (h : Exponent e n) (he : e = []) : n = 0 := by
  cases h with
  | none => rfl
  | some hmark hsign h => cases he

theorem Fraction.isEmpty_eq_false {f digits : Text} (h : Fraction f digits) (hf : f ≠ []) :
    digits.isEmpty = false := by
  cases h with
  | none => exact absurd rfl hf
  | some h => exact List.isEmpty_eq_false_iff.2 h.1

/-- A number is read as what it spells, unless it is an integer with too many digits. -/
theorem complete_readNumber {s rest : Text} {v : Json} (h : Number s v) (hrest : Ends rest) :
    Reaches (readNumber (s ++ rest)) (v, rest) := by
  cases h with
  | @int negative whole hwhole =>
    have hnone := fractionDigits_ends hrest
    rw [List.append_assoc, readNumber_append negative hwhole hrest.not_digit, numberAfter,
      afterFraction, hnone]
    simp only [List.isEmpty_nil, if_true, exponentPart_ends hrest]
    by_cases hlong : Numeral.maxDigits < whole.length
    · rw [if_pos hlong]
      exact .inr ⟨_, rfl, trivial⟩
    · rw [if_neg hlong]
      exact .inl rfl
  | @float negative whole fraction digits exponent n hwhole hfraction hexponent hsome =>
    obtain ⟨hdigits, hafter⟩ := fractionDigits_append hfraction (hexponent.head hrest)
    have hhead : ∀ c ∈ (fraction ++ (exponent ++ rest)).head?, c.isAsciiDigit = false := by
      intro c hc
      cases hfraction with
      | none => exact (hexponent.head hrest c hc).1
      | some h =>
        cases hc
        rfl
    left
    simp only [List.append_assoc]
    rw [readNumber_append negative hwhole hhead, numberAfter, hdigits, hafter]
    by_cases he : exponent = []
    · have hn := hexponent.eq_zero he
      have hnotEmpty := hfraction.isEmpty_eq_false fun h => hsome (by rw [h, he, List.nil_append])
      rw [he, hn, List.nil_append, exponentPart_ends hrest]
      simp only [hnotEmpty, Bool.false_eq_true, if_false, Int.zero_sub]
    · rw [exponentPart_append hexponent he hrest.not_digit]
      simp only [List.drop_left]

/-- A limit stops the reader at a number exactly where an integer has too many digits. -/
theorem readNumber_stopped {s : Text} : Stopped (readNumber s) ↔
    ∃ negative whole rest, s = minus negative ++ (whole ++ rest) ∧ Whole whole ∧
      Numeral.maxDigits < whole.length ∧ IntegerEnds rest := by
  constructor
  · intro hstop
    rcases readNumber_cases s with
      ⟨left, herror⟩ | ⟨negative, whole, rest, hs, hwhole, hhead, hread⟩
    · rw [herror] at hstop
      exact absurd hstop (not_stopped_fault _ _)
    · rw [hread, numberAfter] at hstop
      cases hexponent : exponentPart (afterFraction rest) with
      | some p =>
        rw [hexponent] at hstop
        exact absurd hstop (not_stopped_ok _)
      | none =>
        simp only [hexponent] at hstop
        by_cases hfraction : fractionDigits rest = []
        · rw [if_pos (by rw [hfraction]; rfl)] at hstop
          by_cases hlong : Numeral.maxDigits < whole.length
          · have hne : whole ≠ [48] := by
              rintro rfl
              exact absurd hlong (by decide)
            rw [afterFraction, hfraction, if_pos List.isEmpty_nil] at hexponent
            exact ⟨negative, whole, rest, hs, hwhole, hlong,
              integerEnds_iff.2 ⟨hhead hne, hfraction, hexponent⟩⟩
          · rw [if_neg hlong] at hstop
            exact absurd hstop (not_stopped_ok _)
        · rw [if_neg (by simpa using hfraction)] at hstop
          exact absurd hstop (not_stopped_ok _)
  · rintro ⟨negative, whole, rest, rfl, hwhole, hlong, hends⟩
    obtain ⟨hhead, hfraction, hexponent⟩ := integerEnds_iff.1 hends
    refine ⟨.tooLong whole.length, ?_, trivial⟩
    rw [readNumber_append negative hwhole hhead, numberAfter, afterFraction, hfraction]
    simp only [List.isEmpty_nil, if_true, hexponent, if_pos hlong]

/-! ## Atoms -/

/-- A number is no word, whatever follows it. -/
theorem readAtom_number (negative : Bool) {whole : Text} (h : Whole whole) (rest : Text) :
    readAtom (minus negative ++ (whole ++ rest)) =
      readNumber (minus negative ++ (whole ++ rest)) := by
  obtain ⟨c, t, rfl, hc, -⟩ := h.1.cons
  cases negative with
  | true => exact readAtom_minus hc _
  | false => exact readAtom_digit hc _

theorem Number.cut {s : Text} {v : Json} (h : Number s v) :
    ∃ negative whole rest, s = minus negative ++ (whole ++ rest) ∧ Whole whole := by
  cases h with
  | int negative hwhole => exact ⟨negative, _, [], by rw [List.append_nil], hwhole⟩
  | float negative hwhole _ _ _ => exact ⟨negative, _, _, rfl, hwhole⟩

/-- What is read as an atom spells it. -/
theorem sound_readAtom {s rest : Text} {v : Json} (h : readAtom s = .ok (v, rest)) :
    ∃ t, s = t ++ rest ∧ Spells (.value v) t := by
  rw [readAtom] at h
  cases hword : words.find? fun w => w.1.isPrefixOf s with
  | none =>
    rw [hword] at h
    obtain ⟨t, hs, ht⟩ := sound_readNumber h
    exact ⟨t, hs, .number ht⟩
  | some w =>
    rw [hword] at h
    cases h
    have hmem : w ∈ words := List.mem_of_find?_eq_some hword
    have hprefix := List.find?_some hword
    obtain ⟨t, rfl⟩ := List.isPrefixOf_iff_prefix.1 hprefix
    exact ⟨w.1, by rw [List.drop_left], .word hmem⟩

/-- A word is read as what it stands for, whatever follows it. -/
theorem readAtom_word {s : Text} {v : Json} (h : (s, v) ∈ words) (rest : Text) :
    readAtom (s ++ rest) = .ok (v, rest) := by
  simp only [words_eq, List.mem_cons, List.not_mem_nil, or_false, Prod.mk.injEq] at h
  rcases h with ⟨rfl, rfl⟩ | ⟨rfl, rfl⟩ | ⟨rfl, rfl⟩ | ⟨rfl, rfl⟩ | ⟨rfl, rfl⟩ | ⟨rfl, rfl⟩ <;> rfl

theorem readAtom_stopped {s : Text} : Stopped (readAtom s) ↔
    ∃ negative whole rest, s = minus negative ++ (whole ++ rest) ∧ Whole whole ∧
      Numeral.maxDigits < whole.length ∧ IntegerEnds rest := by
  rw [← readNumber_stopped]
  constructor
  · intro h
    rw [readAtom] at h
    cases hword : words.find? fun w => w.1.isPrefixOf s with
    | none =>
      rw [hword] at h
      exact h
    | some w =>
      rw [hword] at h
      exact absurd h (not_stopped_ok _)
  · intro h
    obtain ⟨negative, whole, rest, rfl, hwhole, -⟩ := readNumber_stopped.1 h
    rwa [readAtom_number negative hwhole]

end Json

end CrossChain
