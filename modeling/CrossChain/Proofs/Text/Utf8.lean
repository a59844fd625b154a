import CrossChain.Text.Utf8
import Mathlib.Data.Fin.Basic

/-!
# Strict UTF-8

Reading takes exactly what writing gives: bytes are read as a text if, and only if, they are the
bytes of that text (`Utf8.decode_eq_ok`).  So no two spellings are read as one text, and no
surrogate is ever read.
-/

namespace CrossChain

namespace Utf8

theorem toNat_toUInt8 {n : Nat} (h : n < 0x100) : n.toUInt8.toNat = n := by
  rw [Nat.toUInt8_eq, UInt8.toNat_ofNat', Nat.mod_eq_of_lt h]

theorem eq_toUInt8 {b : UInt8} {n : Nat} (h : b.toNat = n) : b = n.toUInt8 := by
  have hn : n < 0x100 := h ▸ b.toNat_lt
  exact UInt8.toNat_inj.1 (by rw [h, toNat_toUInt8 hn])

theorem val_ofNat {n : Nat} (h : n < 0x110000) : (CodePoint.ofNat n).val = n := Nat.mod_eq_of_lt h

theorem isSurrogate_eq_false {c : CodePoint} :
    c.isSurrogate = false ↔ c.val < 0xD800 ∨ 0xDFFF < c.val := by
  simp only [CodePoint.isSurrogate, Bool.and_eq_false_iff, decide_eq_false_iff_not]
  omega

theorem isSurrogate_of_ascii {c : CodePoint} (h : c.val < 128) : c.isSurrogate = false := by
  refine isSurrogate_eq_false.2 (.inl ?_)
  omega

/-! ## Inside a code point -/

section Inside

variable {pos seen low high value k : Nat} {lead : UInt8} {bytes : List UInt8} {s : Text}

theorem decodeFrom_last : decodeFrom pos lead seen 1 low high value bytes = .ok s ↔
    ∃ b rest t, bytes = b :: rest ∧ (low ≤ b.toNat ∧ b.toNat ≤ high) ∧
      s = .ofNat (value * 0x40 + b.toNat % 0x40) :: t ∧
      decodeFrom (pos + 1) b 0 0 0 0 0 rest = .ok t := by
  cases bytes with
  | nil => simp [decodeFrom]
  | cons b rest =>
    rw [decodeFrom, if_neg (by decide)]
    by_cases hb : low ≤ b.toNat ∧ b.toNat ≤ high
    · rw [if_pos hb]
      cases hrest : decodeFrom (pos + 1) b 0 0 0 0 0 rest with
      | error e => simp [Except.map, hrest]
      | ok t =>
        simp only [if_true, Except.map, Except.ok.injEq]
        constructor
        · rintro rfl
          exact ⟨b, rest, t, rfl, hb, rfl, hrest⟩
        · rintro ⟨b', rest', t', h, -, rfl, hrest'⟩
          obtain ⟨rfl, rfl⟩ := List.cons.inj h
          rw [hrest, Except.ok.injEq] at hrest'
          rw [hrest']
    · rw [if_neg hb]
      constructor
      · exact nofun
      · rintro ⟨b', rest', t', h, hb', -⟩
        obtain ⟨rfl, rfl⟩ := List.cons.inj h
        exact absurd hb' hb

theorem decodeFrom_more : decodeFrom pos lead seen (k + 2) low high value bytes = .ok s ↔
    ∃ b rest, bytes = b :: rest ∧ (low ≤ b.toNat ∧ b.toNat ≤ high) ∧
      decodeFrom (pos + 1) lead (seen + 1) (k + 1) 0x80 0xBF (value * 0x40 + b.toNat % 0x40) rest =
        .ok s := by
  cases bytes with
  | nil => simp [decodeFrom]
  | cons b rest =>
    rw [decodeFrom, if_neg (by omega)]
    by_cases hb : low ≤ b.toNat ∧ b.toNat ≤ high
    · rw [if_pos hb, if_neg (by omega)]
      constructor
      · exact fun h => ⟨b, rest, rfl, hb, h⟩
      · rintro ⟨b', rest', h, -, hrest⟩
        obtain ⟨rfl, rfl⟩ := List.cons.inj h
        exact hrest
    · rw [if_neg hb]
      constructor
      · exact nofun
      · rintro ⟨b', rest', h, hb', -⟩
        obtain ⟨rfl, rfl⟩ := List.cons.inj h
        exact absurd hb' hb

theorem decodeFrom_ascii_cons {b : UInt8} {rest : List UInt8} (hb : b.toNat < 0x80) :
    decodeFrom pos lead 0 0 0 0 0 (b :: rest) =
      (decodeFrom (pos + 1) b 0 0 0 0 0 rest).map (CodePoint.ofNat b.toNat :: ·) := by
  have hfollowing : following? b = some 0 := by simp only [following?, if_pos hb]
  rw [decodeFrom, if_pos rfl, hfollowing]

theorem decodeFrom_lead {b : UInt8} {rest : List UInt8} (hk : following? b = some (k + 1)) :
    decodeFrom pos lead 0 0 0 0 0 (b :: rest) =
      decodeFrom (pos + 1) b 1 (k + 1) (secondRange b).1 (secondRange b).2 (leadBits b) rest := by
  rw [decodeFrom, if_pos rfl, hk]

end Inside

/-- The second byte's bounds, by the number of the lead byte. -/
theorem secondRange_eq (b : UInt8) : secondRange b =
    if b.toNat = 0xE0 then (0xA0, 0xBF)
    else if b.toNat = 0xED then (0x80, 0x9F)
    else if b.toNat = 0xF0 then (0x90, 0xBF)
    else if b.toNat = 0xF4 then (0x80, 0x8F)
    else (0x80, 0xBF) := by
  simp only [secondRange, ← UInt8.toNat_inj]
  rfl

/-! ## The bytes of a code point -/

/-- Any byte that may follow the second. -/
def Continues (b : UInt8) : Prop := 0x80 ≤ b.toNat ∧ b.toNat ≤ 0xBF

/-- A byte that may follow this lead byte of three or four bytes. -/
def Seconds (lead b : UInt8) : Prop :=
  (secondRange lead).1 ≤ b.toNat ∧ b.toNat ≤ (secondRange lead).2

/-- The bytes that spell a code point; the bounds of the second byte keep out the surrogates, what
fewer bytes can spell, and what is no code point. -/
inductive Spells (c : CodePoint) : List UInt8 → Prop
  | one {b : UInt8} (lead : b.toNat < 0x80) (value : c.val = b.toNat) : Spells c [b]
  | two {b b₁ : UInt8} (lead : 0xC2 ≤ b.toNat ∧ b.toNat < 0xE0) (h₁ : Continues b₁)
      (value : c.val = b.toNat % 0x20 * 0x40 + b₁.toNat % 0x40) : Spells c [b, b₁]
  | three {b b₁ b₂ : UInt8} (lead : 0xE0 ≤ b.toNat ∧ b.toNat < 0xF0) (h₁ : Seconds b b₁)
      (h₂ : Continues b₂)
      (value : c.val = (b.toNat % 0x10 * 0x40 + b₁.toNat % 0x40) * 0x40 + b₂.toNat % 0x40) :
      Spells c [b, b₁, b₂]
  | four {b b₁ b₂ b₃ : UInt8} (lead : 0xF0 ≤ b.toNat ∧ b.toNat < 0xF5) (h₁ : Seconds b b₁)
      (h₂ : Continues b₂) (h₃ : Continues b₃)
      (value : c.val = ((b.toNat % 0x08 * 0x40 + b₁.toNat % 0x40) * 0x40 + b₂.toNat % 0x40) * 0x40 +
        b₃.toNat % 0x40) :
      Spells c [b, b₁, b₂, b₃]

section Bytes

variable {c : CodePoint} {b b₁ : UInt8} {bytes : List UInt8}

/-- The second of three bytes. -/
theorem seconds_three (hb : 0xE0 ≤ b.toNat ∧ b.toNat < 0xF0) : Seconds b b₁ ↔
    Continues b₁ ∧ (b.toNat = 0xE0 → 0xA0 ≤ b₁.toNat) ∧ (b.toNat = 0xED → b₁.toNat ≤ 0x9F) := by
  rw [Seconds, Continues, secondRange_eq]
  split_ifs <;> simp only <;> omega

/-- The second of four bytes. -/
theorem seconds_four (hb : 0xF0 ≤ b.toNat ∧ b.toNat < 0xF5) : Seconds b b₁ ↔
    Continues b₁ ∧ (b.toNat = 0xF0 → 0x90 ≤ b₁.toNat) ∧ (b.toNat = 0xF4 → b₁.toNat ≤ 0x8F) := by
  rw [Seconds, Continues, secondRange_eq]
  split_ifs <;> simp only <;> omega

theorem Spells.isSurrogate_eq_false (h : Spells c bytes) : c.isSurrogate = false := by
  rw [Utf8.isSurrogate_eq_false]
  cases h with
  | one lead value | two lead h₁ value => omega
  | three lead h₁ h₂ value =>
    have hsecond := (seconds_three lead).1 h₁
    rw [Continues] at hsecond
    omega
  | four lead h₁ h₂ h₃ value =>
    have hsecond := (seconds_four lead).1 h₁
    rw [Continues] at hsecond
    omega

/-- A code point is written with the bytes that spell it. -/
theorem Spells.encodePoint_eq (h : Spells c bytes) : encodePoint c = bytes := by
  unfold encodePoint
  cases h with
  | @one b lead value => rw [value, if_pos lead, ← eq_toUInt8 rfl]
  | @two b b₁ lead h₁ value =>
    rw [Continues] at h₁
    simp only
    rw [if_neg (by omega), if_pos (by omega), ← eq_toUInt8 (b := b) (by omega),
      ← eq_toUInt8 (b := b₁) (by omega)]
  | @three b b₁ b₂ lead h₁ h₂ value =>
    have hsecond := (seconds_three lead).1 h₁
    rw [Continues] at h₂ hsecond
    simp only
    rw [if_neg (by omega), if_neg (by omega), if_pos (by omega), ← eq_toUInt8 (b := b) (by omega),
      ← eq_toUInt8 (b := b₁) (by omega), ← eq_toUInt8 (b := b₂) (by omega)]
  | @four b b₁ b₂ b₃ lead h₁ h₂ h₃ value =>
    have hsecond := (seconds_four lead).1 h₁
    rw [Continues] at h₂ h₃ hsecond
    simp only
    rw [if_neg (by omega), if_neg (by omega), if_neg (by omega), ← eq_toUInt8 (b := b) (by omega),
      ← eq_toUInt8 (b := b₁) (by omega), ← eq_toUInt8 (b := b₂) (by omega),
      ← eq_toUInt8 (b := b₃) (by omega)]

/-- Every code point but a surrogate is spelled by the bytes that it is written with. -/
theorem spells_encodePoint (hc : c.isSurrogate = false) : Spells c (encodePoint c) := by
  have hmax := c.isLt
  rw [isSurrogate_eq_false] at hc
  unfold encodePoint
  simp only
  split_ifs with hone htwo hthree
  · have hlead := toNat_toUInt8 (n := c.val) (by omega)
    exact .one (by omega) (by omega)
  · have hlead := toNat_toUInt8 (n := 0xC0 + c.val / 0x40) (by omega)
    have hsecond := toNat_toUInt8 (n := 0x80 + c.val % 0x40) (by omega)
    refine .two (by omega) ?_ (by omega)
    rw [Continues]
    omega
  · have hlead := toNat_toUInt8 (n := 0xE0 + c.val / 0x1000) (by omega)
    have hsecond := toNat_toUInt8 (n := 0x80 + c.val / 0x40 % 0x40) (by omega)
    have hthird := toNat_toUInt8 (n := 0x80 + c.val % 0x40) (by omega)
    refine .three (by omega) ((seconds_three (by omega)).2 ?_) ?_ (by omega)
    all_goals
      rw [Continues]
      omega
  · have hlead := toNat_toUInt8 (n := 0xF0 + c.val / 0x40000) (by omega)
    have hsecond := toNat_toUInt8 (n := 0x80 + c.val / 0x1000 % 0x40) (by omega)
    have hthird := toNat_toUInt8 (n := 0x80 + c.val / 0x40 % 0x40) (by omega)
    have hfourth := toNat_toUInt8 (n := 0x80 + c.val % 0x40) (by omega)
    refine .four (by omega) ((seconds_four (by omega)).2 ?_) ?_ ?_ (by omega)
    all_goals
      rw [Continues]
      omega

end Bytes

/-! ## One code point after the other -/

section Next

variable {pos : Nat} {lead b : UInt8} {rest : List UInt8} {s : Text}

theorem following?_eq_none (hb : 0x80 ≤ b.toNat ∧ b.toNat < 0xC2 ∨ 0xF5 ≤ b.toNat) :
    following? b = none := by
  simp only [following?]
  split_ifs <;> first | rfl | omega

theorem lead_two (hb : 0xC2 ≤ b.toNat ∧ b.toNat < 0xE0) :
    following? b = some (0 + 1) ∧ leadBits b = b.toNat % 0x20 := by
  simp only [following?, leadBits]
  constructor <;> split_ifs <;> first | rfl | omega

theorem lead_three (hb : 0xE0 ≤ b.toNat ∧ b.toNat < 0xF0) :
    following? b = some (0 + 1 + 1) ∧ leadBits b = b.toNat % 0x10 := by
  simp only [following?, leadBits]
  constructor <;> split_ifs <;> first | rfl | omega

theorem lead_four (hb : 0xF0 ≤ b.toNat ∧ b.toNat < 0xF5) :
    following? b = some (1 + 1 + 1) ∧ leadBits b = b.toNat % 0x08 := by
  simp only [following?, leadBits]
  constructor <;> split_ifs <;> first | rfl | omega

theorem decodeFrom_two (hb : 0xC2 ≤ b.toNat ∧ b.toNat < 0xE0) :
    decodeFrom pos lead 0 0 0 0 0 (b :: rest) = .ok s ↔
      ∃ b₁ rest' t, rest = b₁ :: rest' ∧ Continues b₁ ∧
        s = .ofNat (b.toNat % 0x20 * 0x40 + b₁.toNat % 0x40) :: t ∧
        decodeFrom (pos + 2) b₁ 0 0 0 0 0 rest' = .ok t := by
  obtain ⟨hfollowing, hbits⟩ := lead_two hb
  have hrange : secondRange b = (0x80, 0xBF) := by
    rw [secondRange_eq, if_neg (by omega), if_neg (by omega), if_neg (by omega),
      if_neg (by omega)]
  rw [decodeFrom_lead hfollowing, decodeFrom_last, hbits, hrange]
  rfl

theorem decodeFrom_three (hb : 0xE0 ≤ b.toNat ∧ b.toNat < 0xF0) :
    decodeFrom pos lead 0 0 0 0 0 (b :: rest) = .ok s ↔
      ∃ b₁ b₂ rest' t, rest = b₁ :: b₂ :: rest' ∧ Seconds b b₁ ∧ Continues b₂ ∧
        s = .ofNat ((b.toNat % 0x10 * 0x40 + b₁.toNat % 0x40) * 0x40 + b₂.toNat % 0x40) :: t ∧
        decodeFrom (pos + 3) b₂ 0 0 0 0 0 rest' = .ok t := by
  obtain ⟨hfollowing, hbits⟩ := lead_three hb
  rw [decodeFrom_lead hfollowing, decodeFrom_more, hbits]
  constructor
  · rintro ⟨b₁, _, rfl, h₁, h⟩
    obtain ⟨b₂, rest', t, rfl, h₂, hs, hrest⟩ := decodeFrom_last.1 h
    exact ⟨b₁, b₂, rest', t, rfl, h₁, h₂, hs, hrest⟩
  · rintro ⟨b₁, b₂, rest', t, rfl, h₁, h₂, hs, hrest⟩
    exact ⟨b₁, _, rfl, h₁, decodeFrom_last.2 ⟨b₂, rest', t, rfl, h₂, hs, hrest⟩⟩

theorem decodeFrom_four (hb : 0xF0 ≤ b.toNat ∧ b.toNat < 0xF5) :
    decodeFrom pos lead 0 0 0 0 0 (b :: rest) = .ok s ↔
      ∃ b₁ b₂ b₃ rest' t, rest = b₁ :: b₂ :: b₃ :: rest' ∧ Seconds b b₁ ∧ Continues b₂ ∧
        Continues b₃ ∧
        s = .ofNat (((b.toNat % 0x08 * 0x40 + b₁.toNat % 0x40) * 0x40 + b₂.toNat % 0x40) * 0x40 +
          b₃.toNat % 0x40) :: t ∧
        decodeFrom (pos + 4) b₃ 0 0 0 0 0 rest' = .ok t := by
  obtain ⟨hfollowing, hbits⟩ := lead_four hb
  rw [decodeFrom_lead hfollowing, decodeFrom_more, hbits]
  constructor
  · rintro ⟨b₁, _, rfl, h₁, h⟩
    obtain ⟨b₂, _, rfl, h₂, h⟩ := decodeFrom_more.1 h
    obtain ⟨b₃, rest', t, rfl, h₃, hs, hrest⟩ := decodeFrom_last.1 h
    exact ⟨b₁, b₂, b₃, rest', t, rfl, h₁, h₂, h₃, hs, hrest⟩
  · rintro ⟨b₁, b₂, b₃, rest', t, rfl, h₁, h₂, h₃, hs, hrest⟩
    refine ⟨b₁, _, rfl, h₁, decodeFrom_more.2 ⟨b₂, _, rfl, h₂, ?_⟩⟩
    exact decodeFrom_last.2 ⟨b₃, rest', t, rfl, h₃, hs, hrest⟩

/-- What is read goes on with a code point whose bytes come first. -/
theorem decodeFrom_cons_eq_ok (h : decodeFrom pos lead 0 0 0 0 0 (b :: rest) = .ok s) :
    ∃ c bytes t pos' lead' rest', Spells c bytes ∧ b :: rest = bytes ++ rest' ∧ s = c :: t ∧
      decodeFrom pos' lead' 0 0 0 0 0 rest' = .ok t := by
  have hb := b.toNat_lt
  by_cases hone : b.toNat < 0x80
  · rw [decodeFrom_ascii_cons hone] at h
    cases hrest : decodeFrom (pos + 1) b 0 0 0 0 0 rest with
    | error e => rw [hrest] at h; cases h
    | ok t =>
      rw [hrest] at h
      cases h
      exact ⟨_, _, t, _, _, rest, .one hone (val_ofNat (by omega)), rfl, rfl, hrest⟩
  by_cases hnone : b.toNat < 0xC2 ∨ 0xF5 ≤ b.toNat
  · rw [decodeFrom, if_pos rfl, following?_eq_none (by omega)] at h
    cases h
  by_cases htwo : b.toNat < 0xE0
  · have hlead : 0xC2 ≤ b.toNat ∧ b.toNat < 0xE0 := by omega
    obtain ⟨b₁, rest', t, rfl, h₁, rfl, hrest⟩ := (decodeFrom_two hlead).1 h
    exact ⟨_, _, t, _, _, rest', .two hlead h₁ (val_ofNat (by omega)), rfl, rfl, hrest⟩
  by_cases hthree : b.toNat < 0xF0
  · have hlead : 0xE0 ≤ b.toNat ∧ b.toNat < 0xF0 := by omega
    obtain ⟨b₁, b₂, rest', t, rfl, h₁, h₂, rfl, hrest⟩ := (decodeFrom_three hlead).1 h
    exact ⟨_, _, t, _, _, rest', .three hlead h₁ h₂ (val_ofNat (by omega)), rfl, rfl, hrest⟩
  · have hlead : 0xF0 ≤ b.toNat ∧ b.toNat < 0xF5 := by omega
    obtain ⟨b₁, b₂, b₃, rest', t, rfl, h₁, h₂, h₃, rfl, hrest⟩ := (decodeFrom_four hlead).1 h
    have hsecond := (seconds_four hlead).1 h₁
    rw [Continues] at hsecond
    exact ⟨_, _, t, _, _, rest', .four hlead h₁ h₂ h₃ (val_ofNat (by omega)), rfl, rfl, hrest⟩

/-- The bytes that spell a code point are read as it. -/
theorem decodeFrom_append {c : CodePoint} {bytes : List UInt8} {t : Text} (h : Spells c bytes)
    (hrest : ∀ pos lead, decodeFrom pos lead 0 0 0 0 0 rest = .ok t) :
    decodeFrom pos lead 0 0 0 0 0 (bytes ++ rest) = .ok (c :: t) := by
  have hself : CodePoint.ofNat c.val = c := Fin.ofNat_val_eq_self c
  cases h with
  | one hlead value =>
    rw [List.singleton_append, decodeFrom_ascii_cons hlead, hrest, ← value, hself]
    rfl
  | two hlead h₁ value =>
    exact (decodeFrom_two hlead).2 ⟨_, rest, t, rfl, h₁, by rw [← value, hself], hrest _ _⟩
  | three hlead h₁ h₂ value =>
    exact (decodeFrom_three hlead).2
      ⟨_, _, rest, t, rfl, h₁, h₂, by rw [← value, hself], hrest _ _⟩
  | four hlead h₁ h₂ h₃ value =>
    exact (decodeFrom_four hlead).2
      ⟨_, _, _, rest, t, rfl, h₁, h₂, h₃, by rw [← value, hself], hrest _ _⟩

end Next

/-! ## Whole texts -/

theorem encodePoint_ne_nil (c : CodePoint) : encodePoint c ≠ [] := by
  unfold encodePoint
  dsimp only
  repeat' split
  all_goals exact List.cons_ne_nil _ _

theorem encode_eq_ok {s : Text} {bytes : List UInt8} :
    encode s = .ok bytes ↔
      (∀ c ∈ s, c.isSurrogate = false) ∧ bytes = s.flatMap encodePoint := by
  rw [encode, firstFault]
  by_cases hs : (s.all fun c => !c.isSurrogate) = true
  · have hnone : ∀ c ∈ s, c.isSurrogate = false := fun c hc => by
      simpa using List.all_eq_true.1 hs c hc
    rw [if_pos hs]
    simp only [Except.ok.injEq]
    exact ⟨fun h => ⟨hnone, h.symm⟩, fun h => h.2.symm⟩
  · rw [if_neg hs]
    constructor
    · exact nofun
    · rintro ⟨hnone, -⟩
      exact absurd (List.all_eq_true.2 fun c hc => by rw [hnone c hc]; rfl) hs

theorem sound_decodeFrom (bytes : List UInt8) (pos : Nat) (lead : UInt8) {s : Text}
    (h : decodeFrom pos lead 0 0 0 0 0 bytes = .ok s) : encode s = .ok bytes := by
  induction hn : bytes.length using Nat.strongRecOn generalizing bytes pos lead s with
  | ind n ih =>
    cases bytes with
    | nil =>
      cases h
      rfl
    | cons b rest =>
      obtain ⟨c, bytes, t, pos', lead', rest', hc, hbytes, rfl, hrest⟩ := decodeFrom_cons_eq_ok h
      have hpoint : 0 < bytes.length := by cases hc <;> exact Nat.succ_pos _
      have hlength : rest'.length < n := by
        rw [← hn, hbytes, List.length_append]
        omega
      obtain ⟨ht, hrest'⟩ := encode_eq_ok.1 (ih _ hlength rest' pos' lead' hrest rfl)
      rw [encode_eq_ok, List.flatMap_cons, ← hrest', hc.encodePoint_eq, hbytes]
      exact ⟨List.forall_mem_cons.2 ⟨hc.isSurrogate_eq_false, ht⟩, rfl⟩

theorem complete_decodeFrom {s : Text} (hs : ∀ c ∈ s, c.isSurrogate = false) (pos : Nat)
    (lead : UInt8) : decodeFrom pos lead 0 0 0 0 0 (s.flatMap encodePoint) = .ok s := by
  induction s generalizing pos lead with
  | nil => rfl
  | cons c s ih =>
    obtain ⟨hc, hs⟩ := List.forall_mem_cons.1 hs
    rw [List.flatMap_cons]
    exact decodeFrom_append (spells_encodePoint hc) (ih hs)

/-- Bytes are read as a text if, and only if, they are its bytes. -/
theorem decode_eq_ok {bytes : List UInt8} {s : Text} :
    decode bytes = .ok s ↔ encode s = .ok bytes := by
  constructor
  · exact sound_decodeFrom bytes 0 0
  · intro h
    obtain ⟨hs, rfl⟩ := encode_eq_ok.1 h
    exact complete_decodeFrom hs 0 0

end Utf8

end CrossChain
