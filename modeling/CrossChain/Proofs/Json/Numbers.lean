import CrossChain.Json.Reader
import CrossChain.Proofs.Text.Cutting

/-!
# Integers that are written and read back

The numeral of an integer is read back as that integer, if it has no more digits than the reader
takes and what follows is no part of a number (`readAtom_ofInt`).
-/

namespace CrossChain

/-! ## Numerals -/

namespace Text

theorem isAsciiDigit_of_mem_ofNat {n : Nat} {c : CodePoint} (h : c ∈ ofNat n) :
    c.isAsciiDigit = true := by
  obtain ⟨d, hd, rfl⟩ := List.mem_map.1 h
  have hdigit := Nat.isDigit_of_mem_toDigits (by decide) (by decide) hd
  simp only [Char.isDigit, Bool.and_eq_true, decide_eq_true_eq] at hdigit
  simp only [CodePoint.isAsciiDigit, Bool.and_eq_true, decide_eq_true_eq]
  exact hdigit

theorem ofNat_ne_nil (n : Nat) : ofNat n ≠ [] := by
  rw [ofNat, ne_eq, List.map_eq_nil_iff]
  exact Nat.toDigits_ne_nil

theorem digitsValue_ofNat (n : Nat) : digitsValue (ofNat n) = n := by
  rw [digitsValue, ofNat, List.foldl_map]
  exact Nat.ofDigitChars_toDigits (b := 10) (by decide) (by decide)

theorem head_toDigits {n : Nat} (h : 0 < n) : (Nat.toDigits 10 n).head? ≠ some '0' := by
  induction n using Nat.strongRecOn with
  | ind n ih =>
    by_cases hn : n < 10
    · rw [Nat.toDigits_of_lt_base hn]
      have hdigits : ∀ k < 10, 0 < k → [Nat.digitChar k].head? ≠ some '0' := by decide
      exact hdigits n hn h
    · have hrest := ih (n / 10) (by omega) (by omega)
      rw [Nat.toDigits_of_base_le (by decide) (by omega)]
      cases hdigits : Nat.toDigits 10 (n / 10) with
      | nil => exact absurd hdigits Nat.toDigits_ne_nil
      | cons d ds =>
        rw [hdigits] at hrest
        exact hrest

/-- A numeral is a zero alone, or starts with another digit. -/
theorem ofNat_eq (n : Nat) : ofNat n = [48] ∨ ∃ c rest, ofNat n = c :: rest ∧ c ≠ 48 := by
  rcases Nat.eq_zero_or_pos n with rfl | hpos
  · exact .inl rfl
  · have hhead := head_toDigits hpos
    rw [ofNat]
    cases hdigits : Nat.toDigits 10 n with
    | nil => exact absurd hdigits Nat.toDigits_ne_nil
    | cons d ds =>
      rw [hdigits] at hhead
      refine .inr ⟨_, _, List.map_cons, fun h => hhead (congrArg some ?_)⟩
      have hnat : d.toNat = '0'.toNat := congrArg (fun c : CodePoint => c.val) h
      exact Char.toNat_inj.1 hnat

end Text

namespace Json

/-! ## Reading -/

/-- What follows a value: nothing, a blank, a comma or a closing bracket. -/
def Ends (rest : Text) : Prop :=
  ∀ c ∈ rest.head?, isSpace c = true ∨ c = 44 ∨ c = 93 ∨ c = 125

theorem Ends.head {c : CodePoint} {rest : Text} (h : Ends (c :: rest)) :
    c.isAsciiDigit = false ∧ c ≠ 46 ∧ c ≠ 101 ∧ c ≠ 69 := by
  have hc := h c rfl
  rw [isSpace_iff] at hc
  rcases hc with (rfl | rfl | rfl | rfl) | rfl | rfl | rfl <;> decide

theorem Ends.not_digit {rest : Text} (h : Ends rest) :
    ∀ c ∈ rest.head?, c.isAsciiDigit = false := by
  cases rest with
  | nil => exact nofun
  | cons c rest =>
    intro d hd
    cases hd
    exact h.head.1

theorem ofDigits_ofNat {n : Nat} (hshort : (Text.ofNat n).length ≤ Numeral.maxDigits)
    (negative : Bool) :
    Numeral.ofDigits negative (Text.ofNat n) = .ok (if negative then -(n : Int) else n) := by
  rw [Numeral.ofDigits, if_neg (Nat.not_lt.2 hshort), Text.digitsValue_ofNat]

theorem isEmpty_ofNat (n : Nat) : (Text.ofNat n).isEmpty = false :=
  List.isEmpty_eq_false_iff.2 (Text.ofNat_ne_nil n)

theorem ofNat_cons (n : Nat) :
    ∃ c digits, Text.ofNat n = c :: digits ∧ c.isAsciiDigit = true := by
  cases hdigits : Text.ofNat n with
  | nil => exact absurd hdigits (Text.ofNat_ne_nil n)
  | cons c digits =>
    exact ⟨c, digits, rfl, Text.isAsciiDigit_of_mem_ofNat (hdigits ▸ List.mem_cons_self)⟩

/-- The numeral of an integer starts with a digit or a minus sign. -/
theorem ofInt_cons (n : Int) : ∃ c t, Text.ofInt n = c :: t ∧
    ∀ d : CodePoint, d.isAsciiDigit = false → d ≠ 45 → c ≠ d := by
  cases n with
  | ofNat n =>
    obtain ⟨c, digits, hdigits, hc⟩ := ofNat_cons n
    refine ⟨c, digits, hdigits, fun d hd _ he => ?_⟩
    rw [← he, hc] at hd
    cases hd
  | negSucc n => exact ⟨_, _, rfl, fun d _ hd he => hd he.symm⟩

section Number

variable {rest : Text} (h : Ends rest)

include h

theorem integerDigits_ofNat (n : Nat) : integerDigits (Text.ofNat n ++ rest) = Text.ofNat n := by
  rcases Text.ofNat_eq n with hzero | ⟨c, digits, hdigits, hc⟩
  · rw [hzero]
    rfl
  · have htake : (Text.ofNat n ++ rest).takeWhile CodePoint.isAsciiDigit = Text.ofNat n :=
      Text.takeWhile_append_of_head (fun _ => Text.isAsciiDigit_of_mem_ofNat) h.not_digit
    rw [hdigits] at htake ⊢
    rw [List.cons_append, integerDigits]
    · exact htake
    · exact fun tail he => hc (List.cons.inj he).1

theorem fractionDigits_ends : fractionDigits rest = [] := by
  cases rest with
  | nil => rfl
  | cons c rest =>
    rw [fractionDigits]
    exact fun tail he => h.head.2.1 (List.cons.inj he).1

theorem exponentPart_ends : exponentPart rest = none := by
  cases rest with
  | nil => rfl
  | cons c rest =>
    rw [exponentPart, if_neg fun he => he.elim h.head.2.2.1 h.head.2.2.2]

theorem readNumber_ofNat {n : Nat} (hshort : (Text.ofNat n).length ≤ Numeral.maxDigits) :
    readNumber (Text.ofNat n ++ rest) = .ok (.int n, rest) := by
  obtain ⟨c, digits, hdigits, hc⟩ := ofNat_cons n
  unfold readNumber
  split
  next negative tail hsign =>
    split at hsign
    · next hminus =>
      rw [hdigits] at hminus
      obtain ⟨rfl, -⟩ := List.cons.inj hminus
      cases hc
    · cases hsign
      simp only [integerDigits_ofNat h, isEmpty_ofNat, List.drop_left, fractionDigits_ends h,
        exponentPart_ends h, ofDigits_ofNat hshort, List.isEmpty_nil, Bool.false_eq_true, if_true,
        if_false]

theorem readNumber_neg {n : Nat} (hshort : (Text.ofNat n).length ≤ Numeral.maxDigits) :
    readNumber (45 :: (Text.ofNat n ++ rest)) = .ok (.int (-n), rest) := by
  unfold readNumber
  simp only [integerDigits_ofNat h, isEmpty_ofNat, List.drop_left, fractionDigits_ends h,
    exponentPart_ends h, ofDigits_ofNat hshort, List.isEmpty_nil, Bool.false_eq_true, if_true,
    if_false]

end Number

/-! ## Words -/

theorem words_eq : words =
    [([110, 117, 108, 108], .null), ([116, 114, 117, 101], .bool true),
      ([102, 97, 108, 115, 101], .bool false), ([78, 97, 78], .float .nan),
      ([73, 110, 102, 105, 110, 105, 116, 121], .float (.infinite false)),
      ([45, 73, 110, 102, 105, 110, 105, 116, 121], .float (.infinite true))] := rfl

theorem readAtom_digit {c : CodePoint} (hc : c.isAsciiDigit = true) (t : Text) :
    readAtom (c :: t) = readNumber (c :: t) := by
  have hne : ∀ d : CodePoint, d.isAsciiDigit = false → (d == c) = false := fun d hd =>
    beq_eq_false_iff_ne.2 fun he => by rw [he, hc] at hd; cases hd
  rw [readAtom, words_eq]
  simp only [List.find?_cons, List.isPrefixOf, hne 110 (by decide), hne 116 (by decide),
    hne 102 (by decide), hne 78 (by decide), hne 73 (by decide), hne 45 (by decide),
    Bool.false_and, List.find?_nil]

theorem readAtom_minus {c : CodePoint} (hc : c.isAsciiDigit = true) (t : Text) :
    readAtom (45 :: c :: t) = readNumber (45 :: c :: t) := by
  have hne : ∀ d : CodePoint, d.isAsciiDigit = false → (d == c) = false := fun d hd =>
    beq_eq_false_iff_ne.2 fun he => by rw [he, hc] at hd; cases hd
  have hminus : ∀ d : CodePoint, d ≠ 45 → (d == 45) = false := fun d => beq_eq_false_iff_ne.2
  rw [readAtom, words_eq]
  simp only [List.find?_cons, List.isPrefixOf, hminus 110 (by decide), hminus 116 (by decide),
    hminus 102 (by decide), hminus 78 (by decide), hminus 73 (by decide), hne 73 (by decide),
    Bool.false_and, Bool.and_false, List.find?_nil]

/-- The numeral of an integer is read back as that integer. -/
theorem readAtom_ofInt {n : Int} (hshort : Short n) {rest : Text} (h : Ends rest) :
    readAtom (Text.ofInt n ++ rest) = .ok (.int n, rest) := by
  cases n with
  | ofNat n =>
    obtain ⟨c, digits, hdigits, hc⟩ := ofNat_cons n
    have hread := readNumber_ofNat h (n := n) hshort
    rw [Text.ofInt, hdigits, List.cons_append, readAtom_digit hc]
    rwa [hdigits] at hread
  | negSucc n =>
    obtain ⟨c, digits, hdigits, hc⟩ := ofNat_cons (n + 1)
    have hread := readNumber_neg h (n := n + 1) hshort
    rw [Text.ofInt, hdigits, List.cons_append, List.cons_append, readAtom_minus hc]
    rwa [hdigits] at hread

end Json

end CrossChain
