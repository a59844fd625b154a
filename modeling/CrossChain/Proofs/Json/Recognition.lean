import CrossChain.Proofs.Json.Reading

/-!
# What is spelled is read

What the grammar says that a text spells is read, unless a limit stops the reader before
(`completes`), and where the text exceeds a limit it does (`stops`).  Together with what holds of
everything that is read this says what comes of reading any text (`reads`).
-/

namespace CrossChain

namespace Json

/-! ## How parts start -/

/-- The code points with which values start. -/
structure Starts (c : CodePoint) : Prop where
  space : isSpace c = false
  bracket : c ≠ 93
  brace : c ≠ 125
  ascii : c.val < 128

/-- The code points with which words and numbers start. -/
structure StartsAtom (c : CodePoint) : Prop extends Starts c where
  quote : c ≠ 34
  openBrace : c ≠ 123
  openBracket : c ≠ 91

theorem startsAtom_word {s : Text} {v : Json} (h : (s, v) ∈ words) :
    ∃ c t, s = c :: t ∧ StartsAtom c := by
  simp only [words_eq, List.mem_cons, List.not_mem_nil, or_false, Prod.mk.injEq] at h
  rcases h with ⟨rfl, -⟩ | ⟨rfl, -⟩ | ⟨rfl, -⟩ | ⟨rfl, -⟩ | ⟨rfl, -⟩ | ⟨rfl, -⟩ <;>
    exact ⟨_, _, rfl, ⟨rfl, by decide, by decide, by decide⟩, by decide, by decide, by decide⟩

theorem startsAtom_number (negative : Bool) {whole : Text} (h : Whole whole) (rest : Text) :
    ∃ c t, minus negative ++ (whole ++ rest) = c :: t ∧ StartsAtom c := by
  obtain ⟨c, t, rfl, hc, -⟩ := h.1.cons
  cases negative with
  | true =>
    exact ⟨45, _, rfl, ⟨rfl, by decide, by decide, by decide⟩, by decide, by decide, by decide⟩
  | false =>
    have hrange := hc
    simp only [CodePoint.isAsciiDigit, Bool.and_eq_true, decide_eq_true_eq] at hrange
    refine ⟨c, t ++ rest, rfl, ⟨?_, not_digit hc rfl, not_digit hc rfl, by omega⟩,
      not_digit hc rfl, not_digit hc rfl, not_digit hc rfl⟩
    simp only [isSpace, Bool.or_eq_false_iff, beq_eq_false_iff_ne]
    exact ⟨⟨⟨not_digit hc rfl, not_digit hc rfl⟩, not_digit hc rfl⟩, not_digit hc rfl⟩

/-- After blanks the text starts as a value does. -/
def Opens (s : Text) : Prop := ∃ b c t, s = b ++ c :: t ∧ Blank b ∧ Starts c

namespace Opens

variable {b s : Text}

theorem of_cons (h : ∃ c t, s = c :: t ∧ Starts c) : Opens s := by
  obtain ⟨c, t, hs, hc⟩ := h
  exact ⟨[], c, t, hs, blank_nil, hc⟩

theorem append (h : Opens s) (rest : Text) : Opens (s ++ rest) := by
  obtain ⟨b, c, t, rfl, hb, hc⟩ := h
  exact ⟨b, c, t ++ rest, by rw [List.append_assoc, List.cons_append], hb, hc⟩

theorem blank (hb : Blank b) (h : Opens s) : Opens (b ++ s) := by
  obtain ⟨b', c, t, rfl, hb', hc⟩ := h
  refine ⟨b ++ b', c, t, by rw [List.append_assoc], fun d hd => ?_, hc⟩
  exact (List.mem_append.1 hd).elim (hb d) (hb' d)

theorem skipSpace (h : Opens s) : ∃ c t, Json.skipSpace s = c :: t ∧ Starts c := by
  obtain ⟨b, c, t, rfl, hb, hc⟩ := h
  exact ⟨c, t, by rw [skipSpace_of_blank hb, skipSpace_cons hc.space], hc⟩

theorem ne_close (h : Opens s) {close : CodePoint} (hclose : close = 93 ∨ close = 125) :
    (Json.skipSpace s).head? ≠ some close := by
  obtain ⟨c, t, hs, hc⟩ := h.skipSpace
  rw [hs, List.head?_cons]
  intro hsame
  cases hsame
  exact hclose.elim hc.bracket hc.brace

/-- Blanks and values are ASCII at their start, and a byte order mark is not. -/
theorem not_mark (h : Opens s) : s.head? ≠ some 0xFEFF := by
  obtain ⟨b, c, t, rfl, hb, hc⟩ := h
  intro hmark
  cases b with
  | nil =>
    cases hmark
    exact absurd hc.ascii (by decide)
  | cons d b =>
    cases hmark
    exact absurd (hb _ List.mem_cons_self) (by decide)

end Opens

theorem Spells.cons {s : Text} {v : Json} (h : Spells (.value v) s) :
    ∃ c t, s = c :: t ∧ Starts c := by
  cases h with
  | word h =>
    obtain ⟨c, t, hs, hc⟩ := startsAtom_word h
    exact ⟨c, t, hs, hc.toStarts⟩
  | number h =>
    obtain ⟨negative, whole, rest, rfl, hwhole⟩ := h.cut
    obtain ⟨c, t, hs, hc⟩ := startsAtom_number negative hwhole rest
    exact ⟨c, t, hs, hc.toStarts⟩
  | string | emptyArray | array | emptyObject | object =>
    exact ⟨_, _, rfl, rfl, by decide, by decide, by decide⟩

theorem starts_quote : Starts 34 := ⟨rfl, by decide, by decide, by decide⟩

theorem Spells.opens {p : Part} {s : Text} (h : Spells p s) : Opens s := by
  induction h with
  | word h => exact .of_cons (Spells.word h).cons
  | number h => exact .of_cons (Spells.number h).cons
  | string h => exact .of_cons (Spells.string h).cons
  | emptyArray hb => exact .of_cons (Spells.emptyArray hb).cons
  | array h _ => exact .of_cons (Spells.array h).cons
  | emptyObject hb => exact .of_cons (Spells.emptyObject hb).cons
  | object h _ => exact .of_cons (Spells.object h).cons
  | element hb _ _ ih => exact (ih.append _).blank hb
  | lastElement _ ih | lastMember _ ih => exact ih
  | moreElements _ _ ih _ | moreMembers _ _ ih _ => exact ih.append _
  | member hb _ _ _ _ => exact .blank hb (.of_cons ⟨34, _, rfl, starts_quote⟩)

theorem Exceeds.cons {room : Nat} {s : Text} (h : Exceeds .value room s) :
    ∃ c t, s = c :: t ∧ Starts c := by
  cases h with
  | integer negative hwhole _ _ =>
    obtain ⟨c, t, hs, hc⟩ := startsAtom_number negative hwhole _
    exact ⟨c, t, hs, hc.toStarts⟩
  | array | object | inArray | inObject => exact ⟨_, _, rfl, rfl, by decide, by decide, by decide⟩

theorem Exceeds.opens {kind : Kind} {room : Nat} {s : Text} (h : Exceeds kind room s) :
    Opens s := by
  induction h with
  | integer negative hwhole hlong hrest =>
    have h : Exceeds .value 0 _ := .integer negative hwhole hlong hrest
    exact .of_cons h.cons
  | @array rest => exact .of_cons (Exceeds.array : Exceeds .value 0 (91 :: rest)).cons
  | @object rest => exact .of_cons (Exceeds.object : Exceeds .value 0 (123 :: rest)).cons
  | inArray h _ => exact .of_cons (Exceeds.inArray h).cons
  | inObject h _ => exact .of_cons (Exceeds.inObject h).cons
  | element hb _ ih => exact ih.blank hb
  | firstElement _ ih | firstMember _ ih => exact ih
  | laterElement hx _ _ => exact hx.opens.append _
  | laterMember hm _ _ => exact hm.opens.append _
  | member hb _ _ _ _ => exact .blank hb (.of_cons ⟨34, _, rfl, starts_quote⟩)

theorem skipSpace_starts {c : CodePoint} (hc : Starts c) {b : Text} (hb : Blank b) (t : Text) :
    skipSpace (b ++ c :: t) = c :: t := by
  rw [skipSpace_of_blank hb, skipSpace_cons hc.space]

/-! ## What is spelled is read, or exceeds a limit -/

/-- What the reader reaches where a part is spelled, given enough fuel: its value, with what comes
after it up to blanks. -/
def Completes : Part → Text → Prop
  | .value v, s => ∀ fuel room rest, Ends rest → 2 * (s ++ rest).length + 1 ≤ fuel →
    Reaches (readValue fuel room (s ++ rest)) (v, rest)
  | .element v, s => ∀ fuel room rest, Ends rest → 2 * (s ++ rest).length + 1 ≤ fuel →
    ∃ rest', skipSpace rest' = skipSpace rest ∧
      Reaches (readValue fuel room (skipSpace (s ++ rest))) (v, rest')
  | .elements xs, s => ∀ fuel room rest, 2 * (s ++ 93 :: rest).length + 2 ≤ fuel →
    Reaches (readItems fuel room (skipSpace (s ++ 93 :: rest))) (xs, rest)
  | .member m, s => ∀ fuel room rest, Ends rest → 2 * (s ++ rest).length + 1 ≤ fuel →
    ∃ rest', skipSpace rest' = skipSpace rest ∧
      Reaches (readMember fuel room (skipSpace (s ++ rest))) (m, rest')
  | .members ms, s => ∀ fuel room rest, 2 * (s ++ 125 :: rest).length + 2 ≤ fuel →
    Reaches (readMembers fuel room (skipSpace (s ++ 125 :: rest))) (ms, rest)

theorem exists_fuel_of_le {n fuel : Nat} (h : n + 1 ≤ fuel) : ∃ k, fuel = k + 1 ∧ n ≤ k :=
  ⟨fuel - 1, by omega, by omega⟩

theorem completes_atom {v : Json} {s : Text}
    (hs : ∃ c t, s = c :: t ∧ StartsAtom c)
    (hread : ∀ rest, Ends rest → Reaches (readAtom (s ++ rest)) (v, rest)) :
    Completes (.value v) s := by
  intro fuel room rest hrest hfuel
  obtain ⟨c, t, rfl, hc⟩ := hs
  obtain ⟨k, rfl, -⟩ := exists_fuel_of_le hfuel
  rw [List.cons_append, readValue_atom hc.quote hc.openBrace hc.openBracket]
  exact hread rest hrest

theorem completes_word {v : Json} {s : Text} (h : (s, v) ∈ words) : Completes (.value v) s :=
  completes_atom (startsAtom_word h) fun rest _ => .inl (readAtom_word h rest)

theorem completes_number {v : Json} {s : Text} (h : Number s v) : Completes (.value v) s := by
  obtain ⟨negative, whole, tail, hs, hwhole⟩ := h.cut
  refine completes_atom (hs ▸ startsAtom_number negative hwhole tail) fun rest hrest => ?_
  have hatom := readAtom_number negative hwhole (tail ++ rest)
  have hreaches := complete_readNumber h hrest
  rw [hs, List.append_assoc, List.append_assoc, ← hatom] at hreaches
  rw [hs, List.append_assoc, List.append_assoc]
  exact hreaches

theorem completes_string {s t : Text} (h : Chars s t) :
    Completes (.value (.str t)) (34 :: (s ++ [34])) := by
  intro fuel room rest _ hfuel
  obtain ⟨k, rfl, -⟩ := exists_fuel_of_le hfuel
  rw [List.cons_append, List.append_assoc, List.singleton_append, readValue_quote,
    complete_readString h]
  exact .inl rfl

theorem completes_emptyArray {b : Text} (hb : Blank b) :
    Completes (.value (.arr [])) (91 :: (b ++ [93])) := by
  intro fuel room rest _ hfuel
  obtain ⟨k, rfl, -⟩ := exists_fuel_of_le hfuel
  rw [List.cons_append, List.append_assoc, List.singleton_append, readValue_bracket]
  exact enclosed_empty hb rfl

theorem completes_emptyObject {b : Text} (hb : Blank b) :
    Completes (.value (.obj [])) (123 :: (b ++ [125])) := by
  intro fuel room rest _ hfuel
  obtain ⟨k, rfl, -⟩ := exists_fuel_of_le hfuel
  rw [List.cons_append, List.append_assoc, List.singleton_append, readValue_brace]
  exact enclosed_empty hb rfl

theorem completes_array {s : Text} {xs : List Json} (h : Spells (.elements xs) s)
    (ih : Completes (.elements xs) s) : Completes (.value (.arr xs)) (91 :: (s ++ [93])) := by
  intro fuel room rest _ hfuel
  obtain ⟨k, rfl, hk⟩ := exists_fuel_of_le hfuel
  rw [List.cons_append, List.append_assoc, List.singleton_append] at hk ⊢
  rw [readValue_bracket]
  refine enclosed_all ((h.opens.append _).ne_close (.inl rfl)) fun _ => ih k _ rest ?_
  rw [List.length_cons] at hk
  omega

theorem completes_object {s : Text} {ms : List (Text × Json)} (h : Spells (.members ms) s)
    (ih : Completes (.members ms) s) : Completes (.value (ofPairs ms)) (123 :: (s ++ [125])) := by
  intro fuel room rest _ hfuel
  obtain ⟨k, rfl, hk⟩ := exists_fuel_of_le hfuel
  rw [List.cons_append, List.append_assoc, List.singleton_append] at hk ⊢
  rw [readValue_brace]
  refine enclosed_all ((h.opens.append _).ne_close (.inr rfl)) fun _ => ih k _ rest ?_
  rw [List.length_cons] at hk
  omega

theorem completes_element {b s b' : Text} {v : Json} (hb : Blank b) (h : Spells (.value v) s)
    (hb' : Blank b') (ih : Completes (.value v) s) : Completes (.element v) (b ++ (s ++ b')) := by
  intro fuel room rest hrest hfuel
  obtain ⟨c, t, hs, hc⟩ := h.cons
  have hskip : skipSpace (b ++ (s ++ b') ++ rest) = s ++ (b' ++ rest) := by
    rw [List.append_assoc, List.append_assoc, hs, List.cons_append]
    exact skipSpace_starts hc hb _
  refine ⟨b' ++ rest, skipSpace_of_blank hb' rest, ?_⟩
  rw [hskip]
  refine ih fuel room _ (hrest.blank hb') ?_
  simp only [List.length_append] at hfuel ⊢
  omega

theorem completes_member {b k b' s name : Text} {v : Json} (hb : Blank b) (hk : Chars k name)
    (hb' : Blank b') (ih : Completes (.element v) s) :
    Completes (.member (name, v)) (b ++ 34 :: (k ++ 34 :: (b' ++ 58 :: s))) := by
  intro fuel room rest hrest hfuel
  have hskip : skipSpace (b ++ 34 :: (k ++ 34 :: (b' ++ 58 :: s)) ++ rest) =
      34 :: (k ++ 34 :: (b' ++ 58 :: (s ++ rest))) := by
    simp only [List.append_assoc, List.cons_append]
    exact skipSpace_starts starts_quote hb _
  have hlength : 2 * (s ++ rest).length + 1 ≤ fuel := by
    simp only [List.length_append, List.length_cons] at hfuel ⊢
    omega
  obtain ⟨rest', hsame, hreaches⟩ := ih fuel room rest hrest hlength
  refine ⟨rest', hsame, ?_⟩
  rw [hskip, readMember_append hk hb']
  exact hreaches.map fun p => ((name, p.1), p.2)

/-- After a part of a series its end is reached. -/
theorem reaches_close {α : Type} {close : CodePoint} (hclose : isSpace close = false)
    {r : Except Stop (α × Text)} {x : α} {rest rest' : Text}
    {more : Text → Except Stop (List α × Text)} (h : Reaches r (x, rest'))
    (hrest : skipSpace rest' = skipSpace (close :: rest)) :
    Reaches (r >>= fun p => goOn close p.1 more p.2) ([x], rest) := by
  rw [skipSpace_cons hclose] at hrest
  exact h.bind (.inl (goOn_close hrest))

/-- After a part of a series and a comma the next part is reached. -/
theorem reaches_comma {α : Type} {close : CodePoint} (hclose : close ≠ 44)
    {r : Except Stop (α × Text)} {x : α} {xs : List α} {rest rest' tail : Text}
    {more : Text → Except Stop (List α × Text)} (h : Reaches r (x, rest'))
    (hrest : skipSpace rest' = skipSpace (44 :: tail))
    (hmore : Reaches (more (skipSpace tail)) (xs, rest)) :
    Reaches (r >>= fun p => goOn close p.1 more p.2) (x :: xs, rest) := by
  rw [skipSpace_cons rfl] at hrest
  refine h.bind ?_
  rw [goOn_comma hclose hrest]
  exact hmore.map fun p => (x :: p.1, p.2)

theorem completes {p : Part} {s : Text} (h : Spells p s) : Completes p s := by
  induction h with
  | word h => exact completes_word h
  | number h => exact completes_number h
  | string h => exact completes_string h
  | emptyArray hb => exact completes_emptyArray hb
  | emptyObject hb => exact completes_emptyObject hb
  | array h ih => exact completes_array h ih
  | object h ih => exact completes_object h ih
  | element hb h hb' ih => exact completes_element hb h hb' ih
  | member hb hk hb' _ ih => exact completes_member hb hk hb' ih
  | lastElement h ih =>
    intro fuel room rest hfuel
    obtain ⟨k, rfl, hk⟩ := exists_fuel_of_le hfuel
    obtain ⟨rest', hsame, hreaches⟩ := ih k room _ (ends_cons (.inr (.inl rfl)) rest) hk
    rw [readItems_succ]
    exact reaches_close rfl hreaches hsame
  | lastMember h ih =>
    intro fuel room rest hfuel
    obtain ⟨k, rfl, hk⟩ := exists_fuel_of_le hfuel
    obtain ⟨rest', hsame, hreaches⟩ := ih k room _ (ends_cons (.inr (.inr rfl)) rest) hk
    rw [readMembers_succ]
    exact reaches_close rfl hreaches hsame
  | @moreElements s t x xs h _ ih ihs =>
    intro fuel room rest hfuel
    obtain ⟨k, rfl, hk⟩ := exists_fuel_of_le hfuel
    rw [List.append_assoc, List.cons_append] at hk ⊢
    obtain ⟨rest', hsame, hreaches⟩ := ih k room _ (ends_cons (.inl rfl) _) hk
    have hlength : 2 * (t ++ 93 :: rest).length + 2 ≤ k := by
      simp only [List.length_append, List.length_cons] at hk ⊢
      omega
    rw [readItems_succ]
    exact reaches_comma (by decide) hreaches hsame (ihs k room rest hlength)
  | @moreMembers s t m ms h _ ih ihs =>
    intro fuel room rest hfuel
    obtain ⟨k, rfl, hk⟩ := exists_fuel_of_le hfuel
    rw [List.append_assoc, List.cons_append] at hk ⊢
    obtain ⟨rest', hsame, hreaches⟩ := ih k room _ (ends_cons (.inl rfl) _) hk
    have hlength : 2 * (t ++ 125 :: rest).length + 2 ≤ k := by
      simp only [List.length_append, List.length_cons] at hk ⊢
      omega
    rw [readMembers_succ]
    exact reaches_comma (by decide) hreaches hsame (ihs k room rest hlength)

/-! ## Where a limit is exceeded, it stops the reader -/

/-- A limit stops the reader on such a part, given enough fuel. -/
def Stops : Kind → Nat → Text → Prop
  | .value, room, s => ∀ fuel, 2 * s.length + 1 ≤ fuel → Stopped (readValue fuel room s)
  | .element, room, s => ∀ fuel, 2 * s.length + 1 ≤ fuel →
    Stopped (readValue fuel room (skipSpace s))
  | .elements, room, s => ∀ fuel, 2 * s.length + 2 ≤ fuel →
    Stopped (readItems fuel room (skipSpace s))
  | .member, room, s => ∀ fuel, 2 * s.length + 1 ≤ fuel →
    Stopped (readMember fuel room (skipSpace s))
  | .members, room, s => ∀ fuel, 2 * s.length + 2 ≤ fuel →
    Stopped (readMembers fuel room (skipSpace s))

theorem stops {kind : Kind} {room : Nat} {s : Text} (h : Exceeds kind room s) :
    Stops kind room s := by
  induction h with
  | @integer room negative whole rest hwhole hlong hrest =>
    intro fuel hfuel
    obtain ⟨k, rfl, -⟩ := exists_fuel_of_le hfuel
    have hstop := readAtom_stopped.2 ⟨negative, whole, rest, rfl, hwhole, hlong, hrest⟩
    obtain ⟨c, t, hs, hc⟩ := startsAtom_number negative hwhole rest
    rw [hs] at hstop ⊢
    rwa [readValue_atom hc.quote hc.openBrace hc.openBracket]
  | array =>
    intro fuel hfuel
    obtain ⟨k, rfl, -⟩ := exists_fuel_of_le hfuel
    rw [readValue_bracket, enclosed_stopped]
    exact .inl rfl
  | object =>
    intro fuel hfuel
    obtain ⟨k, rfl, -⟩ := exists_fuel_of_le hfuel
    rw [readValue_brace, enclosed_stopped]
    exact .inl rfl
  | inArray h ih =>
    intro fuel hfuel
    obtain ⟨k, rfl, hk⟩ := exists_fuel_of_le hfuel
    rw [readValue_bracket, enclosed_stopped]
    refine .inr ⟨h.opens.ne_close (.inl rfl), ih k ?_⟩
    rw [List.length_cons] at hk
    omega
  | inObject h ih =>
    intro fuel hfuel
    obtain ⟨k, rfl, hk⟩ := exists_fuel_of_le hfuel
    rw [readValue_brace, enclosed_stopped]
    refine .inr ⟨h.opens.ne_close (.inr rfl), ih k ?_⟩
    rw [List.length_cons] at hk
    omega
  | @element room b s hb h ih =>
    intro fuel hfuel
    obtain ⟨c, t, rfl, hc⟩ := h.cons
    rw [skipSpace_starts hc hb]
    refine ih fuel ?_
    rw [List.length_append] at hfuel
    omega
  | firstElement _ ih =>
    intro fuel hfuel
    obtain ⟨k, rfl, hk⟩ := exists_fuel_of_le hfuel
    rw [readItems_succ]
    exact stopped_bind.2 (.inl (ih k hk))
  | firstMember _ ih =>
    intro fuel hfuel
    obtain ⟨k, rfl, hk⟩ := exists_fuel_of_le hfuel
    rw [readMembers_succ]
    exact stopped_bind.2 (.inl (ih k hk))
  | @laterElement room s t x hx _ ih =>
    intro fuel hfuel
    obtain ⟨k, rfl, hk⟩ := exists_fuel_of_le hfuel
    obtain ⟨rest', hsame, hreaches⟩ := completes hx k room _ (ends_cons (.inl rfl) t) hk
    rw [skipSpace_cons rfl] at hsame
    have hlength : 2 * t.length + 2 ≤ k := by
      simp only [List.length_append, List.length_cons] at hk
      omega
    rw [readItems_succ]
    exact hreaches.stopped ((goOn_stopped (by decide)).2 ⟨t, hsame, ih k hlength⟩)
  | @laterMember room s t m hm _ ih =>
    intro fuel hfuel
    obtain ⟨k, rfl, hk⟩ := exists_fuel_of_le hfuel
    obtain ⟨rest', hsame, hreaches⟩ := completes hm k room _ (ends_cons (.inl rfl) t) hk
    rw [skipSpace_cons rfl] at hsame
    have hlength : 2 * t.length + 2 ≤ k := by
      simp only [List.length_append, List.length_cons] at hk
      omega
    rw [readMembers_succ]
    exact hreaches.stopped ((goOn_stopped (by decide)).2 ⟨t, hsame, ih k hlength⟩)
  | @member room b k b' s name hb hk hb' _ ih =>
    intro fuel hfuel
    rw [skipSpace_starts starts_quote hb, readMember_append hk hb', stopped_map]
    refine ih fuel ?_
    simp only [List.length_append, List.length_cons] at hfuel
    omega

/-! ## Whole texts -/

theorem sound_readWhole [Json.Limits] {s : Text} {v : Json} (h : readWhole s = .ok v) :
    Spelled s v := by
  rw [readWhole] at h
  by_cases hmark : s.head? = some 0xFEFF
  · rw [if_pos hmark] at h
    cases h
  rw [if_neg hmark] at h
  obtain ⟨⟨v', rest⟩, hread, hend⟩ := bind_ok h
  obtain ⟨b, hb, hs⟩ := exists_blank s
  obtain ⟨t, ht, hspells⟩ := (soundAt _).element hb hread
  cases hrest : skipSpace rest with
  | nil =>
    simp only [hrest] at hend
    cases hend
    rw [hrest, List.append_nil, ← hs] at ht
    rw [Spelled, ht]
    exact hspells
  | cons c tail =>
    simp only [hrest] at hend
    cases hend

theorem complete_readWhole [Json.Limits] {s : Text} {v : Json} (h : Spelled s v) :
    Reaches (readWhole s) v := by
  rw [readWhole, if_neg (Spells.opens h).not_mark]
  obtain ⟨rest, hrest, hreaches⟩ := completes h (2 * s.length + 2) maxDepth [] ends_nil (by simp)
  rw [List.append_nil] at hreaches
  refine hreaches.bind (.inl ?_)
  have hend : skipSpace rest = [] := hrest
  simp only [hend]
  rfl

theorem readWhole_stopped [Json.Limits] {s : Text} : Stopped (readWhole s) ↔ ExceedsLimit s := by
  constructor
  · intro h
    rw [readWhole] at h
    by_cases hmark : s.head? = some 0xFEFF
    · rw [if_pos hmark] at h
      exact absurd h (not_stopped_fault _ _)
    rw [if_neg hmark] at h
    rcases stopped_bind.1 h with hvalue | ⟨⟨v, rest⟩, -, hend⟩
    · obtain ⟨b, hb, hs⟩ := exists_blank s
      rw [ExceedsLimit, hs]
      exact .element hb ((exceedsAt _).value hvalue)
    · simp only at hend
      split at hend
      · exact absurd hend (not_stopped_ok _)
      · exact absurd hend (not_stopped_fault _ _)
  · intro h
    rw [readWhole, if_neg (Exceeds.opens h).not_mark]
    exact stopped_bind.2 (.inl (stops h _ (by omega)))

/-- The limits of the reader, as against the faults of a text. -/
def ReadError.IsLimit : ReadError → Prop
  | .fault _ => False
  | .tooLong _ => True
  | .tooDeep _ => True

/-- What comes of reading a text: the value that it spells, a fault where it spells none, or a limit
where it exceeds one. -/
inductive Reads [Json.Limits] (s : Text) : Except ReadError Json → Prop
  | value {v : Json} (within : ¬ ExceedsLimit s) (spelled : Spelled s v) : Reads s (.ok v)
  | fault {f : ReadFault} (within : ¬ ExceedsLimit s) (none : ∀ v, ¬ Spelled s v) :
      Reads s (.error (.fault f))
  | limit {e : ReadError} (exceeds : ExceedsLimit s) (limit : e.IsLimit) : Reads s (.error e)

/-- The reader keeps to the grammar and to its limits. -/
theorem reads [Json.Limits] (s : Text) : Reads s (read s) := by
  rw [read]
  cases hread : readWhole s with
  | ok v =>
    have hwithin : ¬ ExceedsLimit s := by
      rw [← readWhole_stopped, hread]
      exact not_stopped_ok v
    exact .value hwithin (sound_readWhole hread)
  | error stop =>
    cases stop with
    | fault reason left =>
      have hwithin : ¬ ExceedsLimit s := by
        rw [← readWhole_stopped, hread]
        exact not_stopped_fault reason left
      refine .fault hwithin fun v hv => ?_
      rcases complete_readWhole hv with hok | hstop
      · rw [hread] at hok
        cases hok
      · exact hwithin (readWhole_stopped.1 hstop)
    | tooLong digits => exact .limit (readWhole_stopped.1 ⟨_, hread, trivial⟩) trivial
    | tooDeep container => exact .limit (readWhole_stopped.1 ⟨_, hread, trivial⟩) trivial

/-- Within the limits what a text spells is read. -/
theorem read_of_spelled [Json.Limits] {s : Text} {v : Json} (h : Spelled s v)
    (hwithin : ¬ ExceedsLimit s) : read s = .ok v := by
  rcases complete_readWhole h with hok | hstop
  · rw [read, hok]
    rfl
  · exact absurd (readWhole_stopped.1 hstop) hwithin

theorem read_eq_ok [Json.Limits] {s : Text} {v : Json} :
    read s = .ok v ↔ Spelled s v ∧ ¬ ExceedsLimit s := by
  refine ⟨fun hread => ?_, fun h => read_of_spelled h.1 h.2⟩
  have hreads := reads s
  rw [hread] at hreads
  cases hreads with
  | value within spelled => exact ⟨spelled, within⟩

end Json

end CrossChain
