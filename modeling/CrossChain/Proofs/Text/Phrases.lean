import Mathlib.Data.List.Chain
import Mathlib.Data.List.Infix
import CrossChain.Text.Blank
import CrossChain.Text.Quoted

/-!
# Finding and removing a phrase

A phrase that starts and ends with no blank is found in a text whether the text is trimmed or not
(`infix_trim`).  In a quoted text a phrase of visible ASCII without quotes and backslashes is found
where it stood (`infix_quoted`).  A phrase with an apostrophe inside is not found if the text holds
a double quote, for then the apostrophe is escaped (`not_infix_quoted`).

Removing a phrase changes just the texts in which it is found (`without_eq_self_iff`).  It is
removed from the start of a text (`without_self_append`) and from the end (`without_append_self`),
and then from the rest as if that stood alone.
-/

namespace CrossChain

/-- Visible ASCII is printable. -/
theorem CodePoint.isPrintable_of_ascii {c : CodePoint} (hlow : 32 ≤ c.val) (hhigh : c.val < 127) :
    c.isPrintable = true := by
  have hranges :
      unprintableRanges.all (fun r => decide (r.2 < 32) || decide (127 ≤ r.1)) = true := by
    decide +kernel
  rw [isPrintable, Bool.not_eq_true', List.any_eq_false]
  intro r hr
  have hrange := List.all_eq_true.1 hranges r hr
  simp only [Bool.or_eq_true, decide_eq_true_eq] at hrange
  simp only [Bool.and_eq_true, decide_eq_true_eq]
  omega

namespace Text

variable {pat s a b : Text} {c mark : CodePoint}

theorem has_iff : has pat s = true ↔ pat <:+: s := by
  induction s with
  | nil => rw [has, List.isEmpty_iff, List.infix_nil]
  | cons c s ih => rw [has, Bool.or_eq_true, ih, List.isPrefixOf_iff_prefix, List.infix_cons_iff]

/-! ## Parts of texts -/

/-- A phrase that does not start with what is dropped is found in what remains. -/
theorem infix_dropWhile {p : CodePoint → Bool} (hpat : ∀ c ∈ pat.head?, p c = false) :
    pat <:+: s.dropWhile p ↔ pat <:+: s := by
  induction s with
  | nil => rfl
  | cons c s ih =>
    rw [List.dropWhile_cons]
    split
    · next hc =>
      rw [ih, List.infix_cons_iff, or_iff_right_of_imp]
      intro hnext
      cases pat with
      | nil => exact List.nil_infix
      | cons d pat =>
        obtain rfl := (List.cons_prefix_cons.1 hnext).1
        rw [hpat d rfl] at hc
        cases hc
    · rfl

/-- A phrase that starts and ends with no blank is found in a trimmed text. -/
theorem infix_trim (hfirst : ∀ c ∈ pat.head?, c.isBlank = false)
    (hlast : ∀ c ∈ pat.getLast?, c.isBlank = false) : pat <:+: trim s ↔ pat <:+: s := by
  rw [trim, strip, stripRight, stripLeft, ← List.reverse_infix, List.reverse_reverse,
    infix_dropWhile (by rwa [List.head?_reverse]), List.reverse_infix, infix_dropWhile hfirst]

/-- What does not stand in a phrase separates the places where it is found. -/
theorem infix_append_cons (hc : c ∉ pat) : pat <:+: a ++ c :: b ↔ pat <:+: a ∨ pat <:+: b := by
  have hnil : ∀ {l : Text}, (∀ d ∈ l, d ∈ pat) → l <+: c :: b → l = [] := fun hl hnext => by
    rcases List.prefix_cons_iff.1 hnext with hnil | ⟨rest, rfl, -⟩
    · exact hnil
    · exact absurd (hl c List.mem_cons_self) hc
  rw [List.infix_append_iff, List.infix_cons_iff]
  constructor
  · rintro (h | (hnext | h) | ⟨l, m, hpat, hsuffix, hnext⟩)
    · exact .inl h
    · rw [hnil (fun _ hd => hd) hnext]
      exact .inl List.nil_infix
    · exact .inr h
    · have hm : m = [] := hnil (fun d hd => hpat ▸ List.mem_append_right l hd) hnext
      rw [hpat, hm, List.append_nil]
      exact .inl hsuffix.isInfix
  · exact fun h => h.imp id fun h => .inl (.inr h)

/-! ## Quoted texts -/

section Quoted

/-- Visible ASCII throughout. -/
def isVisible (s : Text) : Bool := s.all fun c => decide (32 ≤ c.val) && decide (c.val < 127)

theorem isVisible_cons :
    isVisible (c :: s) = true ↔ (32 ≤ c.val ∧ c.val < 127) ∧ isVisible s = true := by
  rw [isVisible, List.all_cons, Bool.and_eq_true, Bool.and_eq_true, decide_eq_true_iff,
    decide_eq_true_iff, ← isVisible]

theorem escaped_of_visible (hlow : 32 ≤ c.val) (hhigh : c.val < 127) (hmark : c ≠ mark)
    (hslash : c ≠ 92) : escaped mark c = [c] := by
  have hne : ∀ d : CodePoint, d.val < 32 → c ≠ d := fun d hd he => Nat.not_le.2 hd (he ▸ hlow)
  rw [escaped, if_neg (not_or.2 ⟨hmark, hslash⟩), if_neg (hne 9 (by decide)),
    if_neg (hne 10 (by decide)), if_neg (hne 13 (by decide)),
    if_pos (CodePoint.isPrintable_of_ascii hlow hhigh)]

theorem flatMap_escaped (hvisible : pat.isVisible = true) (hslash : 92 ∉ pat)
    (hmark : mark ∉ pat) : pat.flatMap (escaped mark) = pat := by
  induction pat with
  | nil => rfl
  | cons c pat ih =>
    obtain ⟨⟨hlow, hhigh⟩, hvisible⟩ := isVisible_cons.1 hvisible
    obtain ⟨hslash, hslashes⟩ := not_or.1 (List.mem_cons.not.1 hslash)
    obtain ⟨hmark, hmarks⟩ := not_or.1 (List.mem_cons.not.1 hmark)
    rw [List.flatMap_cons, ih hvisible hslashes hmarks,
      escaped_of_visible hlow hhigh (Ne.symm hmark) (Ne.symm hslash), List.singleton_append]

theorem quoted_eq (s : Text) :
    quoted s = s.quoteMark :: s.flatMap (escaped s.quoteMark) ++ [s.quoteMark] := rfl

/-- A phrase of visible ASCII without backslashes is shown as it stands, unless the quotes of the
text stand in it. -/
theorem infix_quoted (hvisible : pat.isVisible = true) (hslash : 92 ∉ pat)
    (hmark : s.quoteMark ∉ pat) (h : pat <:+: s) : pat <:+: quoted s := by
  rw [quoted_eq]
  generalize s.quoteMark = mark at hmark
  obtain ⟨a, b, rfl⟩ := h
  refine ⟨mark :: a.flatMap (escaped mark), b.flatMap (escaped mark) ++ [mark], ?_⟩
  simp only [List.flatMap_append, flatMap_escaped hvisible hslash hmark, List.append_assoc,
    List.cons_append]

theorem quoteMark_cases (s : Text) : s.quoteMark = 34 ∨ s.quoteMark = 39 := by
  rw [quoteMark]
  split
  · exact .inl rfl
  · exact .inr rfl

theorem quoteMark_of_double (h : 34 ∈ s) : s.quoteMark = 39 := by
  rw [quoteMark, List.contains_iff_mem.2 h, Bool.not_true, Bool.and_false]
  rfl

theorem quoteMark_of_single (h : 39 ∈ s) (hdouble : 34 ∉ s) : s.quoteMark = 34 := by
  rw [quoteMark, List.contains_iff_mem.2 h,
    Bool.eq_false_iff.2 (List.contains_iff_mem.not.2 hdouble)]
  rfl

/-! ### Apostrophes between single quotes -/

/-- In a text with a double quote the apostrophe is shown with a backslash before it. -/
theorem quoted_apostrophe (ha : a.isVisible = true) (hb : b.isVisible = true)
    (hslash : 92 ∉ a ++ b) (hsingle : 39 ∉ a ++ b) (hdouble : 34 ∈ a ++ b) :
    quoted (a ++ 39 :: b) = 39 :: (a ++ 92 :: 39 :: b) ++ [39] := by
  rw [List.mem_append, not_or] at hslash hsingle
  have hmark : quoteMark (a ++ 39 :: b) = 39 := by
    refine quoteMark_of_double ?_
    rw [List.mem_append, List.mem_cons]
    exact (List.mem_append.1 hdouble).imp_right .inr
  rw [quoted_eq, hmark, List.flatMap_append, List.flatMap_cons,
    flatMap_escaped ha hslash.1 hsingle.1, flatMap_escaped hb hslash.2 hsingle.2]
  rfl

/-- An apostrophe is preceded by a backslash. -/
def Escapes (c d : CodePoint) : Prop := d = 39 → c = 92

theorem isChain_of_not_mem {l : Text} (h : 39 ∉ l) : l.IsChain Escapes := by
  refine List.Pairwise.isChain (List.pairwise_of_forall_mem_list fun c _ d hd hquote => ?_)
  exact absurd (hquote ▸ hd) h

theorem not_mem_hexOfWidth (width n : Nat) : 39 ∉ hexOfWidth width n := by
  have hdigits : ∀ k < 16, CodePoint.ofChar (Nat.digitChar k) ≠ 39 := by decide
  induction width generalizing n with
  | zero => exact List.not_mem_nil
  | succ width ih =>
    rw [hexOfWidth, List.mem_append, List.mem_singleton]
    exact not_or.2 ⟨ih _, (hdigits (n % 16) (Nat.mod_lt _ (by decide))).symm⟩

/-- Between single quotes an apostrophe is shown with a backslash before it. -/
theorem escaped_cases (c : CodePoint) :
    c = 39 ∧ escaped 39 c = [92, 39] ∨ 39 ∉ escaped 39 c := by
  by_cases hquote : c = 39
  · exact .inl ⟨hquote, by rw [hquote]; rfl⟩
  right
  have hc : 39 ≠ c := Ne.symm hquote
  have hhex : ∀ (letter : CodePoint) (width : Nat), letter ≠ 39 →
      39 ∉ [92, letter] ++ hexOfWidth width c.val := fun letter width hletter => by
    simp [not_mem_hexOfWidth, hletter.symm]
  rw [escaped]
  split
  · simp [hc]
  · split
    · decide
    · split
      · decide
      · split
        · decide
        · split
          · simp [hc]
          · split
            · exact hhex 120 2 (by decide)
            · split
              · exact hhex 117 4 (by decide)
              · exact hhex 85 8 (by decide)

theorem isChain_flatMap_escaped (s : Text) :
    (39 :: s.flatMap (escaped 39)).IsChain Escapes := by
  have hfirst : ∀ {c d : CodePoint}, d ≠ 39 → Escapes c d := fun hd h => absurd h hd
  induction s with
  | nil => exact List.isChain_singleton 39
  | cons c s ih =>
    obtain ⟨hhead, hrest⟩ := List.isChain_cons.1 ih
    have hne : ∀ d ∈ (s.flatMap (escaped 39)).head?, d ≠ 39 := fun d hd h =>
      absurd (hhead d hd h) (by decide)
    have hblock : (escaped 39 c).IsChain Escapes ∧ ∀ d ∈ (escaped 39 c).head?, d ≠ 39 := by
      rcases escaped_cases c with ⟨-, h⟩ | h
      · rw [h]
        exact ⟨List.isChain_pair.2 fun _ => rfl, fun d hd => by cases hd; decide⟩
      · exact ⟨isChain_of_not_mem h, fun d hd =>
          ne_of_mem_of_not_mem (List.mem_of_mem_head? hd) h⟩
    rw [List.flatMap_cons, List.isChain_cons, List.isChain_append]
    refine ⟨fun d hd => hfirst ?_, hblock.1, hrest, fun _ _ d hd => hfirst (hne d hd)⟩
    rw [Option.mem_def, List.head?_append, Option.or_eq_some_iff] at hd
    exact hd.elim (hblock.2 d) fun hd => hne d hd.2

/-- An apostrophe with something other than a backslash before it is not found between single
quotes. -/
theorem not_infix_quoted (hdouble : 34 ∈ s) {d e : CodePoint} (hd : d ≠ 92) (he : e ≠ 39) :
    ¬ [d, 39, e] <:+: quoted s := by
  rw [quoted_eq, quoteMark_of_double hdouble, List.infix_concat_iff]
  rintro (hlast | hinside)
  · rcases List.suffix_concat_iff.1 hlast with hnil | ⟨t, ht, -⟩
    · cases hnil
    · have hsame := congrArg List.getLast? ht
      rw [List.getLast?_concat] at hsame
      exact he (Option.some.inj hsame)
  · obtain ⟨before, after, hshown⟩ := hinside
    have hwhole := isChain_flatMap_escaped s
    rw [← hshown] at hwhole
    have hchain := hwhole.left_of_append.right_of_append
    exact hd ((List.isChain_cons_cons.1 hchain).1 rfl)

end Quoted

/-! ## Removing a phrase -/

section Without

/-- What is cut off of a text that starts with a phrase. -/
theorem without_self_append (hne : pat ≠ []) (s : Text) :
    without pat (pat ++ s) = without pat s := by
  obtain ⟨c, q, rfl⟩ := List.exists_cons_of_ne_nil hne
  have hstarts : (c :: q).isPrefixOf (c :: (q ++ s)) = true :=
    List.isPrefixOf_iff_prefix.2 (List.prefix_append (c :: q) s)
  rw [List.cons_append, without, hstarts, if_pos (by rfl), List.length_cons, Nat.add_sub_cancel,
    List.drop_left]

theorem without_cons_of_not_start (h : ¬ pat <+: c :: s) :
    without pat (c :: s) = c :: without pat s := by
  rw [without, Bool.eq_false_iff.2 (mt List.isPrefixOf_iff_prefix.1 h), Bool.and_false]
  rfl

theorem length_without_le (pat s : Text) : (without pat s).length ≤ s.length := by
  fun_induction without pat s with
  | case1 => exact Nat.le_refl 0
  | case2 c rest hstarts ih =>
    rw [List.length_drop] at ih
    rw [List.length_cons]
    omega
  | case3 c rest hstarts ih => simpa only [List.length_cons, Nat.add_le_add_iff_right]

/-- A text with a phrase in it gets shorter. -/
theorem length_without_lt (hne : pat ≠ []) (h : pat <:+: s) :
    (without pat s).length < s.length := by
  induction s with
  | nil => exact absurd (List.infix_nil.1 h) hne
  | cons c s ih =>
    by_cases hstarts : pat <+: c :: s
    · obtain ⟨rest, hrest⟩ := hstarts
      rw [← hrest, without_self_append hne, List.length_append]
      have hle := length_without_le pat rest
      have hpos := List.length_pos_iff.2 hne
      omega
    · rw [without_cons_of_not_start hstarts]
      exact Nat.succ_lt_succ (ih ((List.infix_cons_iff.1 h).resolve_left hstarts))

theorem without_of_not_infix (h : ¬ pat <:+: s) : without pat s = s := by
  induction s with
  | nil => exact without.eq_1 pat
  | cons c s ih =>
    obtain ⟨hstarts, hlater⟩ := not_or.1 (mt List.infix_cons_iff.2 h)
    rw [without_cons_of_not_start hstarts, ih hlater]

/-- Just the texts without a phrase stay as they are. -/
theorem without_eq_self_iff (hne : pat ≠ []) : without pat s = s ↔ ¬ pat <:+: s :=
  ⟨fun hsame h => Nat.ne_of_lt (length_without_lt hne h) (congrArg List.length hsame),
    without_of_not_infix⟩

/-- Where a phrase starts before its own repetition, it ends there too, if its first code point
stands in it just once. -/
theorem prefix_of_prefix_append (hc : c ∉ pat) (h : c :: pat <+: s ++ c :: pat) (hs : s ≠ []) :
    c :: pat <+: s := by
  rcases List.prefix_or_prefix_of_prefix h (List.prefix_append s (c :: pat)) with hinside | hshort
  · exact hinside
  obtain ⟨t, ht⟩ := hshort
  rw [← ht, List.prefix_append_right_inj, ht] at h
  cases t with
  | nil => rw [← ht, List.append_nil]
  | cons d t =>
    obtain ⟨rfl, -⟩ := List.cons_prefix_cons.1 h
    obtain ⟨e, s, rfl⟩ := List.exists_cons_of_ne_nil hs
    obtain ⟨-, rfl⟩ := List.cons.inj ht
    exact absurd (List.mem_append_right s List.mem_cons_self) hc

/-- At the end of a text such a phrase is removed, and nothing else on account of it. -/
theorem without_append_self (hc : c ∉ pat) (s : Text) :
    without (c :: pat) (s ++ c :: pat) = without (c :: pat) s := by
  induction hlength : s.length using Nat.strong_induction_on generalizing s with
  | _ n ih =>
    subst hlength
    cases s with
    | nil =>
      have hall := without_self_append (List.cons_ne_nil c pat) []
      rwa [List.append_nil] at hall
    | cons d s =>
      by_cases hstarts : c :: pat <+: d :: s
      · obtain ⟨rest, hrest⟩ := hstarts
        rw [← hrest, List.append_assoc, without_self_append (List.cons_ne_nil c pat),
          without_self_append (List.cons_ne_nil c pat)]
        refine ih rest.length ?_ rest rfl
        rw [← hrest, List.length_append, List.length_cons]
        omega
      · have hlater : ¬ c :: pat <+: d :: (s ++ c :: pat) :=
          fun h => hstarts (prefix_of_prefix_append hc h (List.cons_ne_nil d s))
        rw [without_cons_of_not_start hstarts, ← ih s.length (Nat.lt_succ_self _) s rfl]
        exact without_cons_of_not_start hlater

end Without

end Text

end CrossChain
