import CrossChain.Json.Printer
import CrossChain.Json.Reader
import Mathlib.Data.List.Chain

/-!
# Strings that are written and read back

A string that was written is read back with the halves of its surrogate pairs joined
(`readString_printed`); where no high half stands directly before a low one that changes nothing
(`Text.joined_of_unpaired`).
-/

namespace CrossChain

/-! ## Surrogate pairs -/

namespace Text

/-- The text with every high surrogate joined to a low one that follows directly. -/
def joined : Text → Text
  | [] => []
  | c :: rest =>
    match joined rest with
    | [] => [c]
    | d :: t => if c.isHighSurrogate && d.isLowSurrogate then .ofPair c d :: t else c :: d :: t

/-- No high surrogate stands directly before a low one. -/
def Unpaired (s : Text) : Prop :=
  s.IsChain fun c d => ¬ (c.isHighSurrogate = true ∧ d.isLowSurrogate = true)

instance decidableUnpaired (s : Text) : Decidable s.Unpaired :=
  inferInstanceAs (Decidable (List.IsChain _ s))

theorem joined_of_unpaired {s : Text} (h : Unpaired s) : joined s = s := by
  induction s with
  | nil => rfl
  | cons c rest ih =>
    rw [joined, ih h.tail]
    cases rest with
    | nil => rfl
    | cons d t =>
      have hpair := (List.isChain_cons_cons.1 h).1
      rw [← Bool.and_eq_true_iff] at hpair
      simp only [if_neg hpair]

theorem joined_eq_nil {s : Text} : joined s = [] ↔ s = [] := by
  cases s with
  | nil => exact Iff.rfl
  | cons c rest =>
    rw [joined]
    cases joined rest with
    | nil => simp
    | cons d t =>
      by_cases h : (c.isHighSurrogate && d.isLowSurrogate) = true <;> simp [h]

end Text

namespace CodePoint

theorem not_isLowSurrogate_ofPair {c d : CodePoint} (hc : c.isHighSurrogate = true)
    (hd : d.isLowSurrogate = true) : (ofPair c d).isLowSurrogate = false := by
  simp only [isHighSurrogate, isLowSurrogate, Bool.and_eq_true, decide_eq_true_eq] at hc hd
  have hval : (ofPair c d).val =
      (0x10000 + (c.val - 0xD800) * 0x400 + (d.val - 0xDC00)) % 0x110000 := rfl
  simp only [isLowSurrogate, Bool.and_eq_false_iff, decide_eq_false_iff_not, hval]
  omega

end CodePoint

/-- A low half in front of a text with joined pairs was in front of the text. -/
theorem Text.head_of_joined {s : Text} {d : CodePoint} {t : Text} (h : joined s = d :: t)
    (hd : d.isLowSurrogate = true) : ∃ rest, s = d :: rest := by
  cases s with
  | nil => cases h
  | cons c rest =>
    rw [joined] at h
    cases hj : joined rest with
    | nil =>
      rw [hj] at h
      cases h
      exact ⟨rest, rfl⟩
    | cons e u =>
      rw [hj] at h
      by_cases hpair : (c.isHighSurrogate && e.isLowSurrogate) = true
      · simp only [if_pos hpair, List.cons.injEq] at h
        obtain ⟨hc, he⟩ := Bool.and_eq_true_iff.1 hpair
        rw [← h.1, CodePoint.not_isLowSurrogate_ofPair hc he] at hd
        cases hd
      · simp only [if_neg hpair, List.cons.injEq] at h
        exact ⟨rest, by rw [h.1]⟩

namespace Json

/-! ## Escapes -/

theorem hexValue?_hexDigit (n : Nat) : (Text.hexDigit n).hexValue? = some (n % 16) := by
  have h : ∀ k < 16, (CodePoint.ofChar (Nat.digitChar k)).hexValue? = some k := by decide
  exact h (n % 16) (Nat.mod_lt _ (by decide))

/-- The digits, and the letters up to f in either case. -/
theorem ranges_of_hexValue? {c : CodePoint} {n : Nat} (h : c.hexValue? = some n) :
    (48 ≤ c.val ∧ c.val ≤ 57) ∨ (97 ≤ c.val ∧ c.val ≤ 102) ∨ (65 ≤ c.val ∧ c.val ≤ 70) := by
  apply Decidable.byContradiction
  intro hnone
  rw [CodePoint.hexValue?, if_neg (by omega), if_neg (by omega), if_neg (by omega)] at h
  cases h

theorem hex4?_hexDigits (n : Nat) (h : n < 0x10000) :
    hex4? (Text.hexDigit (n / 16 / 16 / 16)) (Text.hexDigit (n / 16 / 16))
      (Text.hexDigit (n / 16)) (Text.hexDigit n) = some n := by
  simp only [hex4?, hexValue?_hexDigit, Option.bind_eq_bind, Option.bind_some, Option.pure_def,
    Option.some.injEq]
  omega

theorem unicodeEscape_eq (n : Nat) : unicodeEscape n =
    [92, 117, Text.hexDigit (n / 16 / 16 / 16), Text.hexDigit (n / 16 / 16),
      Text.hexDigit (n / 16), Text.hexDigit n] := rfl

theorem backslash_ne_quote : (92 : CodePoint) ≠ 34 := by decide

theorem readString_unicodeEscape (start n : Nat) (h : n < 0x10000) (next : CodePoint)
    (tail : Text) :
    readString start (unicodeEscape n ++ next :: tail) =
      if (CodePoint.ofNat n).isHighSurrogate then
        consHigh (.ofNat n) (next :: tail) (readString start (next :: tail))
      else consPoint (.ofNat n) (readString start (next :: tail)) := by
  rw [unicodeEscape_eq]
  simp only [List.cons_append, List.nil_append, readString, if_true, if_neg backslash_ne_quote,
    hex4?_hexDigits n h]

theorem readString_short (start : Nat) {e p : CodePoint} (he : e ≠ 117)
    (h : shortEscape? e = some p) (t : Text) :
    readString start (92 :: e :: t) = consPoint p (readString start t) := by
  rw [readString.eq_def]
  simp only [if_true, if_neg backslash_ne_quote, if_neg he, h]

theorem readString_plain (start : Nat) {c : CodePoint} (hquote : c ≠ 34) (hslash : c ≠ 92)
    (h : 32 ≤ c.val) (t : Text) :
    readString start (c :: t) = consPoint c (readString start t) := by
  rw [readString.eq_def]
  simp only [if_neg hquote, if_neg hslash, if_neg (Nat.not_lt.2 h)]

theorem readString_quote (start : Nat) (rest : Text) :
    readString start (34 :: rest) = .ok ([], rest) := by
  rw [readString.eq_def]
  simp only [if_true]

/-- A code point in front of what follows it: a high half joins a low one that is an escape. -/
def before (c : CodePoint) (source : Text) (r : Except Stop (Text × Text)) :
    Except Stop (Text × Text) :=
  if c.isHighSurrogate then consHigh c source r else consPoint c r

theorem ofNat_val (c : CodePoint) : CodePoint.ofNat c.val = c := Fin.ofNat_val_eq_self c

theorem readString_pair (start : Nat) {c : CodePoint} (h : 0x10000 ≤ c.val) (next : CodePoint)
    (tail : Text) :
    readString start (unicodeEscape (0xD800 + (c.val - 0x10000) / 0x400) ++
        (unicodeEscape (0xDC00 + (c.val - 0x10000) % 0x400) ++ next :: tail)) =
      consPoint c (readString start (next :: tail)) := by
  have hc := c.isLt
  generalize hhigh : 0xD800 + (c.val - 0x10000) / 0x400 = high
  generalize hlow : 0xDC00 + (c.val - 0x10000) % 0x400 = low
  have hval : ∀ n < 0x110000, (CodePoint.ofNat n).val = n := fun n hn => Nat.mod_eq_of_lt hn
  have hisHigh : (CodePoint.ofNat high).isHighSurrogate = true := by
    simp only [CodePoint.isHighSurrogate, Bool.and_eq_true, decide_eq_true_eq,
      hval high (by omega)]
    omega
  have hisLow : (CodePoint.ofNat low).isLowSurrogate = true := by
    simp only [CodePoint.isLowSurrogate, Bool.and_eq_true, decide_eq_true_eq, hval low (by omega)]
    omega
  have hnotHigh : (CodePoint.ofNat low).isHighSurrogate = false := by
    simp only [CodePoint.isHighSurrogate, Bool.and_eq_false_iff, decide_eq_false_iff_not,
      hval low (by omega)]
    omega
  have hpair : CodePoint.ofPair (.ofNat high) (.ofNat low) = c := by
    rw [CodePoint.ofPair, hval high (by omega), hval low (by omega)]
    refine (congrArg CodePoint.ofNat ?_).trans (ofNat_val c)
    omega
  rw [unicodeEscape_eq low, List.cons_append, readString_unicodeEscape start high (by omega),
    if_pos hisHigh, ← List.cons_append, ← unicodeEscape_eq low,
    readString_unicodeEscape start low (by omega), if_neg (by rw [hnotHigh]; decide)]
  cases readString start (next :: tail) with
  | error e => rfl
  | ok p =>
    simp only [consHigh, consPoint, Except.map, unicodeEscape_eq, List.cons_append, hisLow, if_true,
      hpair]

/-- The forms in which a code point is written: by a letter, as it is, or as one or two escapes. -/
inductive Escape (c : CodePoint) : Text → Prop
  | letter (e : CodePoint) (notUnicode : e ≠ 117) (short : shortEscape? e = some c)
    (visible : 32 ≤ e.val ∧ e.val ≤ 126) (low : c.val < 0x80) : Escape c [92, e]
  | plain (notQuote : c ≠ 34) (notSlash : c ≠ 92) (visible : 32 ≤ c.val ∧ c.val ≤ 126) :
    Escape c [c]
  | unicode (small : c.val < 0x10000) : Escape c (unicodeEscape c.val)
  | pair (large : 0x10000 ≤ c.val) :
    Escape c (unicodeEscape (0xD800 + (c.val - 0x10000) / 0x400) ++
      unicodeEscape (0xDC00 + (c.val - 0x10000) % 0x400))

theorem escape_spec (c : CodePoint) : Escape c (escape c) := by
  by_cases hshort : c = 34 ∨ c = 92 ∨ c = 10 ∨ c = 13 ∨ c = 9 ∨ c = 12 ∨ c = 8
  · rcases hshort with rfl | rfl | rfl | rfl | rfl | rfl | rfl
    · exact .letter 34 (by decide) rfl (by decide) (by decide)
    · exact .letter 92 (by decide) rfl (by decide) (by decide)
    · exact .letter 110 (by decide) rfl (by decide) (by decide)
    · exact .letter 114 (by decide) rfl (by decide) (by decide)
    · exact .letter 116 (by decide) rfl (by decide) (by decide)
    · exact .letter 102 (by decide) rfl (by decide) (by decide)
    · exact .letter 98 (by decide) rfl (by decide) (by decide)
  · simp only [not_or] at hshort
    obtain ⟨h34, h92, h10, h13, h9, h12, h8⟩ := hshort
    simp only [escape, if_neg h34, if_neg h92, if_neg h10, if_neg h13, if_neg h9, if_neg h12,
      if_neg h8]
    split
    · next hvisible => exact .plain h34 h92 hvisible
    · split
      · next hsmall => exact .unicode hsmall
      · next hlarge => exact .pair (Nat.not_lt.1 hlarge)

theorem readString_escape (start : Nat) (c next : CodePoint) (tail : Text) :
    readString start (escape c ++ next :: tail) =
      before c (next :: tail) (readString start (next :: tail)) := by
  have hbefore : c.isHighSurrogate = false →
      before c (next :: tail) (readString start (next :: tail)) =
        consPoint c (readString start (next :: tail)) := fun h => by
    rw [before, h, if_neg (by decide)]
  generalize htext : escape c = text
  cases htext ▸ escape_spec c with
  | letter e notUnicode short visible low =>
    rw [hbefore (by simp only [CodePoint.isHighSurrogate, Bool.and_eq_false_iff,
      decide_eq_false_iff_not]; omega)]
    exact readString_short start notUnicode short (next :: tail)
  | plain notQuote notSlash visible =>
    rw [hbefore (by simp only [CodePoint.isHighSurrogate, Bool.and_eq_false_iff,
      decide_eq_false_iff_not]; omega)]
    exact readString_plain start notQuote notSlash visible.1 (next :: tail)
  | unicode small =>
    rw [readString_unicodeEscape start c.val small, ofNat_val]
    rfl
  | pair large =>
    rw [hbefore (by simp only [CodePoint.isHighSurrogate, Bool.and_eq_false_iff,
      decide_eq_false_iff_not]; omega), List.append_assoc]
    exact readString_pair start large next tail

/-! ## Strings -/

theorem escape_isLowSurrogate {c : CodePoint} (h : c.isLowSurrogate = true) :
    ∃ t, escape c = 92 :: 117 :: t := by
  simp only [CodePoint.isLowSurrogate, Bool.and_eq_true, decide_eq_true_eq] at h
  generalize htext : escape c = text
  cases htext ▸ escape_spec c with
  | letter e notUnicode short visible low => omega
  | plain notQuote notSlash visible => omega
  | unicode small => exact ⟨_, unicodeEscape_eq c.val⟩
  | pair large => omega

/-- Reading what stands in front of strings that are read. -/
theorem before_escapes (c : CodePoint) (s rest : Text) :
    before c (s.flatMap escape ++ 34 :: rest) (.ok (Text.joined s, rest)) =
      .ok (Text.joined (c :: s), rest) := by
  rw [before, Text.joined]
  by_cases hhigh : c.isHighSurrogate = true
  · rw [if_pos hhigh, consHigh]
    cases hj : Text.joined s with
    | nil =>
      obtain rfl := Text.joined_eq_nil.1 hj
      rfl
    | cons d t =>
      cases hlow : d.isLowSurrogate with
      | true =>
        obtain ⟨s', rfl⟩ := Text.head_of_joined hj hlow
        obtain ⟨u, hu⟩ := escape_isLowSurrogate hlow
        simp only [List.flatMap_cons, hu, List.cons_append, Except.map, hlow, hhigh, Bool.and_true,
          if_true]
      | false =>
        simp only [Except.map, hlow, Bool.and_false, Bool.false_eq_true, if_false]
        split
        · next hsame =>
          obtain ⟨rfl, -⟩ := List.cons.inj hsame
          rw [hlow, if_neg Bool.false_ne_true]
        · rfl
  · rw [if_neg hhigh, consPoint]
    rw [Bool.not_eq_true] at hhigh
    cases Text.joined s with
    | nil => rfl
    | cons d t => simp only [Except.map, hhigh, Bool.false_and, Bool.false_eq_true, if_false]

/-- A string that was written is read back with its surrogate pairs joined. -/
theorem readString_printed (start : Nat) (s rest : Text) :
    readString start (s.flatMap escape ++ 34 :: rest) = .ok (Text.joined s, rest) := by
  induction s with
  | nil => exact readString_quote start rest
  | cons c s ih =>
    rw [List.flatMap_cons, List.append_assoc, ← before_escapes, ← ih]
    cases htail : s.flatMap escape ++ 34 :: rest with
    | nil => exact absurd htail (List.append_ne_nil_of_right_ne_nil _ (List.cons_ne_nil _ _))
    | cons next tail => exact readString_escape start c next tail

end Json

end CrossChain
