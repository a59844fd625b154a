import CrossChain.Client
import CrossChain.Proofs.Failing
import CrossChain.Proofs.Json.Grammar
import CrossChain.Proofs.Json.Writing
import CrossChain.Proofs.Text.Cutting

/-!
# Funds and their text

Coins are read from what gives them, and a coin gives itself both as it is and as a value
(`Funds.read_coins`, `Funds.read_values`).  The text of well-formed coins comes apart again: at the
commas, which no coin has, and in every coin at the first letter (`Funds.detached_attached?`).  So
no two lists of such coins have one text (`Funds.attached?_inj`).
-/

namespace CrossChain

/-! ## Coins as they are given -/

namespace GivenCoin

/-- A coin is given as it is, or by a value that has the denomination and any form of the amount
that can be written. -/
inductive Gives : GivenCoin → Coin → Prop
  | coin (c : Coin) : Gives (.coin c) c
  | value (v amount denom : Json) (hamount : v.member "amount" = .ok amount)
    (hdenom : v.member "denom" = .ok denom) (hwritable : amount.isWritable = true) :
    Gives (.value v) ⟨amount.display, denom⟩

theorem read_eq_ok_iff {given : GivenCoin} {c : Coin} : given.read = .ok c ↔ given.Gives c := by
  constructor
  · intro h
    cases given with
    | coin c' =>
      cases h
      exact .coin c
    | value v =>
      obtain ⟨amount, hamount, hrest⟩ := Act.except_bind_eq_ok h
      obtain ⟨shown, hshown, hrest⟩ := Act.except_bind_eq_ok hrest
      obtain ⟨denom, hdenom, ⟨⟩⟩ := Act.except_bind_eq_ok hrest
      obtain ⟨hwritable, rfl⟩ := Json.shown_eq_ok.1 hshown
      exact .value v amount denom hamount hdenom hwritable
  · rintro (c | ⟨v, amount, denom, hamount, hdenom, hwritable⟩)
    · rfl
    · rw [read, Coin.ofJson, hamount, hdenom]
      simp only [bind, Except.bind, Json.shown_eq_ok.2 ⟨hwritable, rfl⟩]
      rfl

/-- A coin gives itself as the value that says it. -/
theorem gives_toJson (c : Coin) : Gives (.value c.toJson) c :=
  .value _ c.amount c.denom rfl rfl rfl

end GivenCoin

namespace Funds

theorem read_eq_ok_iff {given : List GivenCoin} {coins : List Coin} :
    read given = .ok coins ↔ List.Forall₂ GivenCoin.Gives given coins := by
  rw [read, mapM_eq_ok_iff]
  exact ⟨fun h => h.imp fun _ _ => GivenCoin.read_eq_ok_iff.1,
    fun h => h.imp fun _ _ => GivenCoin.read_eq_ok_iff.2⟩

/-- Where something is no coin, reading fails like the first such thing. -/
theorem read_of_none {given : List GivenCoin} (h : ∃ g ∈ given, ∀ c, ¬ g.Gives c) :
    ∃ before g after e, given = before ++ g :: after ∧ (∀ b ∈ before, ∃ c, b.Gives c) ∧
      g.read = .error e ∧ read given = .error e := by
  obtain ⟨g, hg, hnone⟩ := h
  have hnot : ¬ ∀ g ∈ given, ∃ c, g.Gives c := fun hall =>
    (hall g hg).elim hnone
  obtain ⟨before, first, after, rfl, hbefore, hfirst⟩ := exists_split_of_not_forall hnot
  cases hread : first.read with
  | ok c => exact absurd ⟨c, GivenCoin.read_eq_ok_iff.1 hread⟩ hfirst
  | error e =>
    refine ⟨before, first, after, e, rfl, hbefore, hread, mapM_eq_of_split ?_ hread⟩
    exact fun b hb => (hbefore b hb).imp fun c => GivenCoin.read_eq_ok_iff.2

theorem read_values (coins : List Coin) :
    read (coins.map fun c => .value c.toJson) = .ok coins := by
  rw [read_eq_ok_iff, List.forall₂_map_left_iff, List.forall₂_same]
  exact fun c _ => GivenCoin.gives_toJson c

theorem read_coins (coins : List Coin) : read (coins.map .coin) = .ok coins := by
  rw [read_eq_ok_iff, List.forall₂_map_left_iff, List.forall₂_same]
  exact fun c _ => .coin c

end Funds

theorem Contract.execute_coins {σ : Type} (client : ChainClient σ) (contract : Contract)
    (m : ContractMessage) (coins : List Coin) :
    contract.execute client m (coins.map .coin) =
      client.execute contract.address m.toJson coins := by
  rw [execute, Funds.read_coins]
  rfl

/-! ## Well-formed coins -/

namespace CodePoint

/-- The ASCII letters in either case. -/
def isAsciiLetter (c : CodePoint) : Bool :=
  65 ≤ c.val && c.val ≤ 90 || 97 ≤ c.val && c.val ≤ 122

/-- Letters and digits, and the marks `/`, `:`, `.`, `_` and `-`.  Nothing is told apart outside
ASCII, so that the letters and digits of every script are among these. -/
def isDenomPart (c : CodePoint) : Bool :=
  c.isAsciiLetter || c.isAsciiDigit || (text "/:._-").contains c || !c.isAscii

theorem isAsciiDigit_of_isAsciiLetter {c : CodePoint} (h : c.isAsciiLetter = true) :
    c.isAsciiDigit = false := by
  simp only [isAsciiLetter, Bool.or_eq_true, Bool.and_eq_true, decide_eq_true_eq] at h
  simp only [isAsciiDigit, Bool.and_eq_false_iff, decide_eq_false_iff_not]
  omega

end CodePoint

/-- A text names a denomination: it starts with an ASCII letter and has no other parts than
denominations have. -/
structure Text.IsDenom (s : Text) : Prop where
  starts : ∃ c ∈ s.head?, c.isAsciiLetter = true
  parts : ∀ c ∈ s, c.isDenomPart = true

namespace Coin

/-- The amount is a numeral of ASCII digits, and the denomination is named by a text. -/
structure WellFormed (c : Coin) : Prop where
  amount : Json.Digits c.amount
  denom : ∃ name, c.denom = .str name ∧ Text.IsDenom name

/-- A coin as it stands in the text of several. -/
def toText (c : Coin) : Text := c.amount ++ c.denom.display

/-- The coin that a text stands for: the digits at its start are the amount. -/
def ofText (s : Text) : Coin :=
  ⟨s.takeWhile CodePoint.isAsciiDigit, .str (s.dropWhile CodePoint.isAsciiDigit)⟩

variable {c : Coin}

theorem WellFormed.isWritable_denom (h : c.WellFormed) : c.denom.isWritable = true := by
  obtain ⟨name, hname, -⟩ := h.denom
  rw [hname]
  rfl

theorem WellFormed.comma_not_mem (h : c.WellFormed) : 44 ∉ c.toText := by
  obtain ⟨name, hname, hdenom⟩ := h.denom
  rw [toText, hname, List.mem_append, not_or]
  constructor
  · exact fun hmem => absurd (h.amount.2 44 hmem) (by decide)
  · exact fun hmem => absurd (hdenom.parts 44 hmem) (by decide)

/-- Digits in the denomination do no harm, for a letter stands before them. -/
theorem WellFormed.ofText_toText (h : c.WellFormed) : ofText c.toText = c := by
  obtain ⟨amount, denom⟩ := c
  obtain ⟨⟨-, hdigits⟩, name, rfl, ⟨first, hfirst, hletter⟩, -⟩ := h
  have hname : ∀ c ∈ name.head?, c.isAsciiDigit = false := fun c hc => by
    rw [Option.mem_unique hc hfirst]
    exact CodePoint.isAsciiDigit_of_isAsciiLetter hletter
  have hamount : (amount ++ name).takeWhile CodePoint.isAsciiDigit = amount :=
    Text.takeWhile_append_of_head hdigits hname
  have hrest : (amount ++ name).dropWhile CodePoint.isAsciiDigit = name :=
    Text.dropWhile_append_of_head hdigits hname
  exact congrArg₂ (fun a n => Coin.mk a (.str n)) hamount hrest

end Coin

/-! ## The text of funds -/

namespace Funds

/-- The coins that a text stands for, and no coins if there is none. -/
def detached : Option Text → List Coin
  | none => []
  | some s => (s.splitAt 44).map Coin.ofText

theorem attached?_of_ne_nil {coins : List Coin} (h : coins ≠ []) :
    attached? coins = some (Text.join [44] (coins.map Coin.toText)) := by
  cases coins with
  | nil => exact absurd rfl h
  | cons c rest => rfl

theorem attached?_eq_none_iff {coins : List Coin} : attached? coins = none ↔ coins = [] := by
  refine ⟨fun h => ?_, fun h => h ▸ rfl⟩
  by_contra hne
  rw [attached?_of_ne_nil hne] at h
  cases h

theorem attach_of_isWritable {coins : List Coin} (h : ∀ c ∈ coins, c.denom.isWritable = true) :
    attach coins = .ok (attached? coins) := if_pos (List.all_eq_true.2 h)

theorem eq_of_attach_eq_ok {coins : List Coin} {s : Option Text} (h : attach coins = .ok s) :
    attached? coins = s := by
  rw [attach] at h
  split at h
  · exact Except.ok.inj h
  · cases h

theorem detached_attached? {coins : List Coin} (h : ∀ c ∈ coins, c.WellFormed) :
    detached (attached? coins) = coins := by
  by_cases hne : coins = []
  · rw [hne]
    rfl
  · have hpieces : ∀ piece ∈ coins.map Coin.toText, 44 ∉ piece :=
      List.forall_mem_map.2 fun c hc => (h c hc).comma_not_mem
    rw [attached?_of_ne_nil hne, detached, Text.splitAt_join (mt List.map_eq_nil_iff.1 hne) hpieces,
      List.map_map]
    exact (List.map_congr_left fun c hc => (h c hc).ofText_toText).trans (List.map_id coins)

theorem attached?_inj {coins coins' : List Coin} (h : ∀ c ∈ coins, c.WellFormed)
    (h' : ∀ c ∈ coins', c.WellFormed) (hsame : attached? coins = attached? coins') :
    coins = coins' := by
  rw [← detached_attached? h, hsame, detached_attached? h']

end Funds

end CrossChain
