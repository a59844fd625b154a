import CrossChain.Proofs.Envelope.Body
import CrossChain.Proofs.Outcome.Acknowledgement

/-!
# Acknowledgements of one string

A text that spells an object with one member, a string, can be cut at its tokens
(`Json.cut_of_objectText`).  It is read whatever the string is, for nothing in it exceeds a limit of
the reader (`Json.OneString.read`), and it can be encoded where the name and the string can
(`Json.OneString.encode_eq_ok`).  So an acknowledgement of this kind is always decoded
(`AckBody.decode_oneString`), and a result that was written for a value has this value
(`AckBody.successValue_oneString`).
-/

namespace CrossChain

namespace Json

/-! ## What strings are written with -/

theorem ascii_of_hexValue? {c : CodePoint} {n : Nat} (h : c.hexValue? = some n) :
    c.val < 128 := by
  have hranges := ranges_of_hexValue? h
  omega

theorem ascii_of_hex4? {a b c d : CodePoint} {n : Nat} (h : hex4? a b c d = some n) :
    ∀ x ∈ [a, b, c, d], x.val < 128 := by
  simp only [hex4?, Option.bind_eq_bind, Option.bind_eq_some_iff] at h
  obtain ⟨_, ha, _, hb, _, hc, _, hd, -⟩ := h
  simp only [List.forall_mem_cons]
  exact ⟨ascii_of_hexValue? ha, ascii_of_hexValue? hb, ascii_of_hexValue? hc,
    ascii_of_hexValue? hd, List.forall_mem_nil _⟩

theorem ascii_of_shortEscape? {e c : CodePoint} (h : shortEscape? e = some c) : e.val < 128 := by
  apply Decidable.byContradiction
  intro hlarge
  have hne : ∀ k : CodePoint, k.val < 128 → e ≠ k := fun k hk he => hlarge (he ▸ hk)
  simp [shortEscape?, hne 34 (by decide), hne 92 (by decide), hne 47 (by decide),
    hne 98 (by decide), hne 102 (by decide), hne 110 (by decide), hne 114 (by decide),
    hne 116 (by decide)] at h

/-- What a string is written with is ASCII, or stands in the string itself. -/
theorem Chars.ascii_or_mem {s t : Text} (h : Chars s t) : ∀ c ∈ s, c.val < 128 ∨ c ∈ t := by
  have hlater : ∀ {k t : Text} {c : CodePoint}, (∀ x ∈ k, x.val < 128 ∨ x ∈ t) →
      ∀ x ∈ k, x.val < 128 ∨ x ∈ c :: t := fun h x hx => (h x hx).imp_right (List.mem_cons_of_mem _)
  induction h with
  | nil => exact nofun
  | plain notQuote notSlash visible rest ih =>
    exact List.forall_mem_cons.2 ⟨.inr List.mem_cons_self, hlater ih⟩
  | short escape rest ih =>
    simp only [List.forall_mem_cons]
    exact ⟨.inl (by decide), .inl (ascii_of_shortEscape? escape), hlater ih⟩
  | unicode escape _ rest ih | lone escape _ _ rest ih =>
    have hdigits := ascii_of_hex4? escape
    simp only [List.forall_mem_cons] at hdigits ⊢
    obtain ⟨ha, hb, hc, hd, -⟩ := hdigits
    exact ⟨.inl (by decide), .inl (by decide), .inl ha, .inl hb, .inl hc, .inl hd, hlater ih⟩
  | pair escape _ escape' _ rest ih =>
    have hdigits := ascii_of_hex4? escape
    have hdigits' := ascii_of_hex4? escape'
    simp only [List.forall_mem_cons] at hdigits hdigits' ⊢
    obtain ⟨ha, hb, hc, hd, -⟩ := hdigits
    obtain ⟨ha', hb', hc', hd', -⟩ := hdigits'
    exact ⟨.inl (by decide), .inl (by decide), .inl ha, .inl hb, .inl hc, .inl hd, .inl (by decide),
      .inl (by decide), .inl ha', .inl hb', .inl hc', .inl hd', hlater ih⟩

/-- A code point that needs no escape. -/
def isPlain (c : CodePoint) : Bool := c != 34 && c != 92 && decide (32 ≤ c.val)

/-- A string that needs no escapes may be written as it is. -/
theorem chars_plain {s : Text} (h : s.all isPlain = true) : Chars s s := by
  induction s with
  | nil => exact .nil
  | cons c s ih =>
    rw [List.all_cons, Bool.and_eq_true, isPlain, Bool.and_eq_true, Bool.and_eq_true, bne_iff_ne,
      bne_iff_ne, decide_eq_true_eq] at h
    obtain ⟨⟨⟨notQuote, notSlash⟩, visible⟩, hs⟩ := h
    exact .plain notQuote notSlash visible (ih hs)

/-! ## The shape of the text -/

theorem spells_str {s t : Text} (h : Spells (.value (.str t)) s) :
    ∃ k, s = 34 :: (k ++ [34]) ∧ Chars k t := by
  generalize hv : Json.str t = v at h
  cases h with
  | word h => simp [words_eq, ← hv] at h
  | number h => cases h <;> cases hv
  | string h =>
    cases hv
    exact ⟨_, rfl, h⟩
  | emptyArray | array | emptyObject | object => cases hv

/-- The text is an object with one string, cut at its tokens and blanks. -/
inductive OneString (name value : Text) : Text → Prop
  | cut {b₁ b₂ b₃ b₄ b₅ b₆ k u : Text} (h₁ : Blank b₁) (h₂ : Blank b₂) (hname : Chars k name)
      (h₃ : Blank b₃) (h₄ : Blank b₄) (hvalue : Chars u value) (h₅ : Blank b₅) (h₆ : Blank b₆) :
      OneString name value (b₁ ++ 123 :: (b₂ ++ 34 :: (k ++ 34 :: (b₃ ++ 58 :: (b₄ ++ 34 ::
        (u ++ 34 :: (b₅ ++ 125 :: b₆)))))))

theorem cut_of_objectText {s name value : Text} (h : ObjectText s [(name, .str value)]) :
    OneString name value s := by
  obtain ⟨b₁, t, b₆, rfl, h₁, h₆, ⟨hnil, -⟩ | ht⟩ := h
  · cases hnil
  cases ht with
  | moreMembers h rest => cases rest
  | lastMember h =>
    cases h with
    | @member b₂ k b₃ s _ _ h₂ hname h₃ h =>
      cases h with
      | @element b₄ s b₅ _ h₄ h h₅ =>
        obtain ⟨u, rfl, hvalue⟩ := spells_str h
        have hcut := OneString.cut h₁ h₂ hname h₃ h₄ hvalue h₅ h₆
        simpa only [List.append_assoc, List.cons_append, List.nil_append] using hcut

namespace OneString

variable {name value s : Text}

theorem readMembers {b₃ b₄ b₅ k u : Text} (hname : Chars k name) (h₃ : Blank b₃) (h₄ : Blank b₄)
    (hvalue : Chars u value) (h₅ : Blank b₅) (fuel room : Nat) (rest : Text) :
    Json.readMembers (fuel + 2) room (34 :: (k ++ 34 :: (b₃ ++ 58 :: (b₄ ++ 34 ::
      (u ++ 34 :: (b₅ ++ 125 :: rest)))))) = .ok ([(name, .str value)], rest) := by
  have hread : readValue (fuel + 1) room
      (skipSpace (b₄ ++ 34 :: (u ++ 34 :: (b₅ ++ 125 :: rest)))) =
        .ok (.str value, b₅ ++ 125 :: rest) := by
    rw [skipSpace_starts starts_quote h₄, readValue_quote, complete_readString hvalue]
    rfl
  have hclose : skipSpace (b₅ ++ 125 :: rest) = 125 :: rest := by
    rw [skipSpace_of_blank h₅, skipSpace_cons rfl]
  rw [readMembers_succ, readMember_append hname h₃, hread]
  exact goOn_close hclose

theorem starts_brace : Starts 123 := ⟨rfl, by decide, by decide, by decide⟩

theorem not_mark (h : OneString name value s) : s.head? ≠ some 0xFEFF := by
  obtain ⟨h₁⟩ := h
  exact Opens.not_mark ⟨_, _, _, rfl, h₁, starts_brace⟩

/-- Two containers' worth of calls read the text, however long its strings are. -/
theorem read [Json.Limits] (h : OneString name value s) :
    Json.read s = .ok (.obj [(name, .str value)]) := by
  have hmark := h.not_mark
  have hlength : 0 < s.length := by
    obtain ⟨h₁⟩ := h
    exact List.length_pos_of_ne_nil (List.append_ne_nil_of_right_ne_nil _ (List.cons_ne_nil _ _))
  have hfuel : 2 * s.length + 2 = 2 * s.length - 1 + 2 + 1 := by omega
  rw [Json.read, readWhole, if_neg hmark, hfuel]
  obtain ⟨h₁, h₂, hname, h₃, h₄, hvalue, h₅, h₆⟩ := h
  have hend : ∀ {b : Text}, Blank b → skipSpace b = [] := by
    intro b hb
    rw [← List.append_nil b, skipSpace_of_blank hb]
    rfl
  have hroom : maxDepth ≠ 0 := Nat.ne_zero_of_lt two_le_maxDepth
  rw [skipSpace_starts starts_brace h₁, readValue_brace, enclosed, if_neg hroom,
    skipSpace_starts starts_quote h₂, if_neg (by rw [List.head?_cons]; decide),
    readMembers hname h₃ h₄ hvalue h₅]
  simp only [Except.map, bind, Except.bind, hend h₆]
  rfl

theorem not_exceedsLimit [Json.Limits] (h : OneString name value s) : ¬ ExceedsLimit s :=
  (read_eq_ok.1 h.read).2

/-- What is written around the strings is ASCII. -/
theorem ascii_or_mem (h : OneString name value s) :
    ∀ c ∈ s, c.val < 128 ∨ c ∈ name ∨ c ∈ value := by
  have hblank : ∀ {b : Text}, Blank b → ∀ c ∈ b, c.val < 128 ∨ c ∈ name ∨ c ∈ value := by
    intro b hb c hc
    have hrange := CodePoint.isAsciiBlank_iff.1 (isAsciiBlank_of_isSpace (hb c hc))
    exact .inl (by omega)
  obtain ⟨h₁, h₂, hname, h₃, h₄, hvalue, h₅, h₆⟩ := h
  simp only [List.forall_mem_append, List.forall_mem_cons]
  have htoken : ∀ {c : CodePoint}, c.val < 128 → c.val < 128 ∨ c ∈ name ∨ c ∈ value := .inl
  refine ⟨hblank h₁, htoken (by decide), hblank h₂, htoken (by decide), ?_, htoken (by decide),
    hblank h₃, htoken (by decide), hblank h₄, htoken (by decide), ?_, htoken (by decide),
    hblank h₅, htoken (by decide), hblank h₆⟩
  · exact fun c hc => (hname.ascii_or_mem c hc).imp_right .inl
  · exact fun c hc => (hvalue.ascii_or_mem c hc).imp_right .inr

theorem encode_eq_ok (h : OneString name value s) (hname : ∀ c ∈ name, c.isSurrogate = false)
    (hvalue : ∀ c ∈ value, c.isSurrogate = false) :
    Utf8.encode s = .ok (s.flatMap Utf8.encodePoint) := by
  refine Utf8.encode_eq_ok.2 ⟨fun c hc => ?_, rfl⟩
  rcases h.ascii_or_mem c hc with hascii | hmem | hmem
  · exact Utf8.isSurrogate_of_ascii hascii
  · exact hname c hmem
  · exact hvalue c hmem

end OneString

/-- A string that needs no escapes, as the only member of an object. -/
theorem objectText_plain {name value : Text} (hname : name.all isPlain = true)
    (hvalue : value.all isPlain = true) :
    ObjectText ("\x7b\"" ++ (name ++ ("\":\"" ++ (value ++ "\"\x7d")))) [(name, .str value)] := by
  have hstring : Spells (.element (.str value)) (34 :: (value ++ [34])) := by
    simpa using Spells.element blank_nil (.string (chars_plain hvalue)) blank_nil
  have hmember := Spells.member blank_nil (chars_plain hname) blank_nil hstring
  refine ⟨[], _, [], ?_, blank_nil, blank_nil, .inr (.lastMember hmember)⟩
  simp [text, CodePoint.ofChar]

end Json

/-! ## Acknowledgements -/

theorem BinaryBody.wrap_surrogates (v : Json) :
    ∀ c ∈ BinaryBody.wrap v, c.isSurrogate = false := by
  intro c hc
  have hascii := (Base64.written_encode _).isAscii c hc
  rw [CodePoint.isAscii, decide_eq_true_eq] at hascii
  exact Utf8.isSurrogate_of_ascii hascii

namespace AckBody

variable {ack : AckBody} {s : Text}

theorem member_surrogates (good : Bool) : ∀ c ∈ member good, c.isSurrogate = false := by
  have hall : (member good).all (fun c => !c.isSurrogate) = true := by cases good <;> decide
  intro c hc
  simpa using List.all_eq_true.1 hall c hc

theorem decode_oneString [Json.Limits] (good : Bool) {value : Text} (hs : ack.Says s)
    (h : Json.ObjectText s [(member good, .str value)]) : ack.decode = .ok ⟨good, .str value⟩ := by
  have hwithin := not_exceeds hs (Json.cut_of_objectText h).not_exceedsLimit
  have hother : (member !good) ≠ member good := by cases good <;> decide
  refine Carries.decode_eq ⟨s, _, hs, h, if_pos rfl, nofun, fun hmem => ?_⟩ hwithin
  exact hother (List.mem_singleton.1 hmem)

theorem successValue_oneString [Json.Limits] {v : Json} (hreadable : v.Readable Json.maxDepth)
    (hplain : v.Plain) (hs : ack.Says s)
    (h : Json.ObjectText s [("result", .str (BinaryBody.wrap v))]) :
    ack.successValue = .ok v := by
  have hdecode : ack.decode = .ok ⟨true, .str (BinaryBody.wrap v)⟩ := decode_oneString true hs h
  rw [successValue, hdecode]
  exact BinaryBody.decode_wrap hreadable hplain

end AckBody

end CrossChain
