import CrossChain.Proofs.Json.Grammar
import CrossChain.Proofs.Json.Strings

/-!
# Strings that are spelled

The reader takes a string exactly where one is spelled: what stands in front of a quote is read as
what it spells (`complete_readString`), and nothing else is read (`sound_readString`).
-/

namespace CrossChain

namespace Json

/-! ## Limits that stop the reader -/

/-- The limits of the reader, as against the faults of a text. -/
def Stop.IsLimit : Stop → Prop
  | .fault _ _ => False
  | .tooLong _ => True
  | .tooDeep _ => True

section Stopped

variable {α β : Type}

/-- A limit stopped the reader. -/
def Stopped (r : Except Stop α) : Prop := ∃ stop, r = .error stop ∧ stop.IsLimit

/-- The reader gives this, if no limit stops it. -/
def Reaches (r : Except Stop α) (a : α) : Prop := r = .ok a ∨ Stopped r

theorem not_stopped_ok (a : α) : ¬ Stopped (Except.ok a : Except Stop α) := by
  rintro ⟨stop, h, -⟩
  cases h

theorem not_stopped_fault (reason : ReadFault.Reason) (left : Nat) :
    ¬ Stopped (Except.error (.fault reason left) : Except Stop α) := by
  rintro ⟨stop, h, hlimit⟩
  cases h
  exact hlimit

theorem stopped_bind {r : Except Stop α} {f : α → Except Stop β} :
    Stopped (r >>= f) ↔ Stopped r ∨ ∃ a, r = .ok a ∧ Stopped (f a) := by
  cases r with
  | error stop =>
    constructor
    · rintro ⟨stop', h, hlimit⟩
      cases h
      exact .inl ⟨stop, rfl, hlimit⟩
    · rintro (⟨stop', h, hlimit⟩ | ⟨a, h, -⟩)
      · cases h
        exact ⟨stop, rfl, hlimit⟩
      · cases h
  | ok a =>
    constructor
    · exact fun h => .inr ⟨a, rfl, h⟩
    · rintro (h | ⟨a', h, hf⟩)
      · exact absurd h (not_stopped_ok a)
      · cases h
        exact hf

theorem Reaches.bind {r : Except Stop α} {a : α} (h : Reaches r a) {f : α → Except Stop β} {b : β}
    (hf : Reaches (f a) b) : Reaches (r >>= f) b := by
  rcases h with rfl | h
  · exact hf
  · exact .inr (stopped_bind.2 (.inl h))

/-- After what the reader reaches it goes on there, or a limit stopped it before. -/
theorem Reaches.stopped {r : Except Stop α} {a : α} (h : Reaches r a) {f : α → Except Stop β}
    (hf : Stopped (f a)) : Stopped (r >>= f) := by
  rcases h with rfl | h
  · exact hf
  · exact stopped_bind.2 (.inl h)

theorem stopped_map {r : Except Stop α} {f : α → β} : Stopped (r.map f) ↔ Stopped r := by
  cases r with
  | error stop =>
    constructor
    all_goals
      rintro ⟨stop', h, hlimit⟩
      cases h
      exact ⟨stop, rfl, hlimit⟩
  | ok a => exact ⟨fun h => absurd h (not_stopped_ok _), fun h => absurd h (not_stopped_ok _)⟩

theorem Reaches.map {r : Except Stop α} {a : α} (h : Reaches r a) (f : α → β) :
    Reaches (r.map f) (f a) := by
  rcases h with rfl | h
  · exact .inl rfl
  · exact .inr (stopped_map.2 h)

theorem bind_ok {r : Except Stop α} {f : α → Except Stop β} {b : β} (h : r >>= f = .ok b) :
    ∃ a, r = .ok a ∧ f a = .ok b := by
  cases r with
  | error stop => cases h
  | ok a => exact ⟨a, rfl, h⟩

end Stopped

/-! ## Strings -/

/-- An escape in front of what is read. -/
theorem readString_hex (start : Nat) {a b c d : CodePoint} {n : Nat} (h : hex4? a b c d = some n)
    {s : Text} (hs : s ≠ []) :
    readString start (92 :: 117 :: a :: b :: c :: d :: s) =
      before (.ofNat n) s (readString start s) := by
  cases s with
  | nil => exact absurd rfl hs
  | cons next tail =>
    rw [readString.eq_def]
    simp only [if_true, if_neg backslash_ne_quote, h]
    rfl

theorem before_of_not_high {c : CodePoint} (h : c.isHighSurrogate = false) (source : Text)
    (r : Except Stop (Text × Text)) : before c source r = consPoint c r := by
  rw [before, h, if_neg Bool.false_ne_true]

theorem not_high_of_low {c : CodePoint} (h : c.isLowSurrogate = true) :
    c.isHighSurrogate = false := by
  simp only [CodePoint.isLowSurrogate, Bool.and_eq_true, decide_eq_true_eq] at h
  simp only [CodePoint.isHighSurrogate, Bool.and_eq_false_iff, decide_eq_false_iff_not]
  omega

theorem not_shortEscape?_u : shortEscape? 117 = none := by decide

/-- A string that starts with a low half and is spelled with an escape first is spelled with the
escape of that half first. -/
theorem Chars.lowEscape {s t u rest more : Text} {low : CodePoint} (h : Chars s u)
    (hu : u = low :: t) (hs : s ++ 34 :: rest = 92 :: 117 :: more)
    (hlow : low.isLowSurrogate = true) : LowEscape s := by
  induction h with
  | nil => cases hu
  | plain notQuote notSlash visible _ => exact absurd (List.cons.inj hs).1 notSlash
  | short escape _ =>
    rw [(List.cons.inj (List.cons.inj hs).2).1, not_shortEscape?_u] at escape
    cases escape
  | unicode escape notHigh _ =>
    rw [← (List.cons.inj hu).1] at hlow
    exact ⟨_, _, _, _, _, _, rfl, escape, hlow⟩
  | pair escape high escape' low' _ =>
    rw [← (List.cons.inj hu).1, CodePoint.not_isLowSurrogate_ofPair high low'] at hlow
    cases hlow
  | lone escape high alone _ =>
    rw [← (List.cons.inj hu).1] at hlow
    rw [not_high_of_low hlow] at high
    cases high

/-- What is spelled with the escape of a low half first starts with that half. -/
theorem Chars.of_low {s t k : Text} {a b c d : CodePoint} {n : Nat} (h : Chars s t)
    (hs : s = 92 :: 117 :: a :: b :: c :: d :: k) (escape : hex4? a b c d = some n)
    (low : (CodePoint.ofNat n).isLowSurrogate = true) : ∃ t', t = .ofNat n :: t' ∧ Chars k t' := by
  induction h with
  | nil => cases hs
  | plain notQuote notSlash visible _ => exact absurd (List.cons.inj hs).1 notSlash
  | short escape' _ =>
    rw [(List.cons.inj (List.cons.inj hs).2).1, not_shortEscape?_u] at escape'
    cases escape'
  | unicode escape' notHigh rest =>
    simp only [List.cons.injEq] at hs
    obtain ⟨-, -, rfl, rfl, rfl, rfl, rfl⟩ := hs
    rw [escape, Option.some.injEq] at escape'
    rw [escape']
    exact ⟨_, rfl, rest⟩
  | pair escape' high _ _ _ | lone escape' high _ _ =>
    simp only [List.cons.injEq] at hs
    obtain ⟨-, -, rfl, rfl, rfl, rfl, -⟩ := hs
    rw [escape, Option.some.injEq] at escape'
    rw [← escape', not_high_of_low low] at high
    cases high

/-- A high half stays alone where no escape of a low half comes next. -/
theorem consHigh_alone {k t : Text} (h : Chars k t) (alone : ¬ LowEscape k) (c : CodePoint)
    (rest : Text) : consHigh c (k ++ 34 :: rest) (.ok (t, rest)) = .ok (c :: t, rest) := by
  rw [consHigh, Except.map]
  congr 1
  split
  · next more low t' hsource ht =>
    have hnot : low.isLowSurrogate = false := by
      rw [← Bool.not_eq_true]
      exact fun hlow => alone (h.lowEscape ht hsource hlow)
    simp only [hnot, Bool.false_eq_true, if_false]
  · rfl

/-- What is spelled in front of a quote is read as what it spells. -/
theorem complete_readString {s t : Text} (h : Chars s t) (start : Nat) (rest : Text) :
    readString start (s ++ 34 :: rest) = .ok (t, rest) := by
  have hne : ∀ u : Text, u ++ 34 :: rest ≠ [] := fun u =>
    List.append_ne_nil_of_right_ne_nil u (List.cons_ne_nil _ _)
  induction h with
  | nil => exact readString_quote start rest
  | plain notQuote notSlash visible _ ih =>
    rw [List.cons_append, readString_plain start notQuote notSlash visible, ih]
    rfl
  | @short e c s t escape _ ih =>
    have he : e ≠ 117 := by
      rintro rfl
      rw [not_shortEscape?_u] at escape
      cases escape
    rw [List.cons_append, List.cons_append, readString_short start he escape, ih]
    rfl
  | @unicode a b c d n s t escape notHigh _ ih =>
    simp only [List.cons_append]
    rw [readString_hex start escape (hne s), ih, before_of_not_high notHigh]
    rfl
  | @pair a b c d a' b' c' d' n m s t escape high escape' low _ ih =>
    simp only [List.cons_append]
    rw [readString_hex start escape (List.cons_ne_nil _ _), readString_hex start escape' (hne s),
      ih, before_of_not_high (not_high_of_low low), before, if_pos high]
    simp only [consHigh, consPoint, Except.map, if_pos low]
  | @lone a b c d n s t escape high alone hs ih =>
    simp only [List.cons_append]
    rw [readString_hex start escape (hne s), ih, before, if_pos high, consHigh_alone hs alone]

theorem map_eq_ok {α β : Type} {f : α → β} {r : Except Stop α} {b : β} (h : r.map f = .ok b) :
    ∃ a, r = .ok a ∧ f a = b := by
  cases r with
  | error stop => cases h
  | ok a =>
    cases h
    exact ⟨a, rfl, rfl⟩

/-- A high half in front of a string: it stays, or joins the low half of an escape. -/
theorem Chars.high {a b c d : CodePoint} {n : Nat} (escape : hex4? a b c d = some n)
    (high : (CodePoint.ofNat n).isHighSurrogate = true) {k t : Text} (h : Chars k t)
    (rest : Text) : ∃ t', consHigh (.ofNat n) (k ++ 34 :: rest) (.ok (t, rest)) = .ok (t', rest) ∧
      Chars (92 :: 117 :: a :: b :: c :: d :: k) t' := by
  by_cases hlow : LowEscape k
  · obtain ⟨a', b', c', d', m, k', hk, escape', low⟩ := hlow
    obtain ⟨t', rfl, h'⟩ := h.of_low hk escape' low
    rw [hk]
    refine ⟨.ofPair (.ofNat n) (.ofNat m) :: t', ?_, .pair escape high escape' low h'⟩
    simp only [consHigh, List.cons_append, Except.map, if_pos low]
  · exact ⟨.ofNat n :: t, consHigh_alone h hlow _ rest, .lone escape high hlow h⟩

theorem not_stopped_readString (start : Nat) (s : Text) : ¬ Stopped (readString start s) := by
  fun_induction readString start s with
  | case1 | case3 | case4 | case7 | case9 | case10 => exact not_stopped_fault _ _
  | case2 => exact not_stopped_ok _
  | case5 | case6 | case8 | case11 =>
    rename_i ih
    exact fun h => ih (stopped_map.1 h)

/-- What is read as a string stands in front of a quote and spells it. -/
theorem sound_readString (start : Nat) (s : Text) {t rest : Text}
    (h : readString start s = .ok (t, rest)) : ∃ k, s = k ++ 34 :: rest ∧ Chars k t := by
  fun_induction readString start s generalizing t rest with
  | case1 | case3 | case4 | case7 | case9 | case10 => cases h
  | case2 tail =>
    cases h
    exact ⟨[], rfl, .nil⟩
  | case5 a b c d next tail n escape =>
    rename_i high _ ih
    obtain ⟨⟨t', rest'⟩, hread, htail⟩ : ∃ r, readString start (next :: tail) = .ok r ∧
        consHigh (.ofNat n) (next :: tail) (.ok r) = .ok (t, rest) := by
      obtain ⟨r, hr, hr'⟩ := map_eq_ok h
      exact ⟨r, hr, congrArg Except.ok hr'⟩
    obtain ⟨k, hk, hchars⟩ := ih hread
    obtain ⟨t'', hjoin, h'⟩ := hchars.high escape high rest'
    rw [← hk, htail] at hjoin
    cases hjoin
    exact ⟨_, by rw [hk]; rfl, h'⟩
  | case6 a b c d next tail n escape =>
    rename_i notHigh _ ih
    obtain ⟨⟨t', rest'⟩, hread, htail⟩ := map_eq_ok h
    cases htail
    obtain ⟨k, hk, hchars⟩ := ih hread
    rw [Bool.not_eq_true] at notHigh
    exact ⟨_, by rw [hk]; rfl, .unicode escape notHigh hchars⟩
  | case8 e more _ p escape _ ih =>
    obtain ⟨⟨t', rest'⟩, hread, htail⟩ := map_eq_ok h
    cases htail
    obtain ⟨k, hk, hchars⟩ := ih hread
    exact ⟨_, by rw [hk]; rfl, .short escape hchars⟩
  | case11 c tail notQuote notSlash visible ih =>
    obtain ⟨⟨t', rest'⟩, hread, htail⟩ := map_eq_ok h
    cases htail
    obtain ⟨k, hk, hchars⟩ := ih hread
    exact ⟨_, by rw [hk]; rfl, .plain notQuote notSlash (Nat.not_lt.1 visible) hchars⟩

end Json

end CrossChain
