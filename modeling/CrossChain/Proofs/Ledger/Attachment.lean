import CrossChain.Proofs.Funds
import CrossChain.Proofs.Ledger.Sequence

/-!
# Funds that a ledger gets with a message

Funds go to a ledger as one text, from which the coins can be read back, all of them and in order
(`Funds.attached_reads_back`).  So whoever sees the broadcast of a message knows which coins it
carries (`Ledger.leaves_handsOver`).
-/

namespace CrossChain

namespace Ledger

/-- Nothing is broadcast, and the end is a failure; or one broadcast hands over a message, with a
text that stands for coins. -/
def HandsOver (message : Json) (coins : List Coin) (l : List LedgerEntry)
    (r : Except Failure Text) : Prop :=
  (broadcasts l = [] ∧ ∃ e, r = .error e) ∨
    ∃ funds ended, broadcasts l = [⟨.execute message funds, ended⟩] ∧ Funds.detached funds = coins

theorem Executes.broadcasts {address : Json → Except Failure Text} {target message : Json}
    {funds : List Coin} {l : List LedgerEntry} {r : Except Failure Text}
    (h : Executes address target message funds l r) :
    (broadcasts l = [] ∧ ∃ e, r = .error e) ∨
      ∃ ended, broadcasts l = [executed message funds ended] := by
  cases h with
  | noAccount e | unopened account e | unwritten account e => exact .inl ⟨rfl, e, rfl⟩
  | transacted account l _ h hl =>
    refine .inr ?_
    cases hl <;> exact ⟨_, rfl⟩

theorem leaves_handsOver {σ : Type} (node : Node σ) (target message : Json) {coins : List Coin}
    (h : ∀ c ∈ coins, c.WellFormed) :
    Logged.Leaves (HandsOver message coins) (execute node.noted target message coins) := by
  refine (leaves_execute node target message coins).mono ?_
  rintro l _ ⟨r, hexecutes, rfl⟩
  rcases hexecutes.broadcasts with ⟨hnone, e, rfl⟩ | ⟨ended, hone⟩
  · exact .inl ⟨hnone, _, rfl⟩
  · exact .inr ⟨_, ended, hone, Funds.detached_attached? h⟩

end Ledger

namespace Funds

/-- Well-formed coins can be written.  Their text is missing just when there are no coins, and
stands for these coins in this order and for no others; a ledger gets no other text with a message.
The coins are read the same whether they are given as values or as they are. -/
theorem attached_reads_back {coins : List Coin} (h : ∀ c ∈ coins, c.WellFormed) :
    attach coins = .ok (attached? coins) ∧
    (attached? coins = none ↔ coins = []) ∧
    detached (attached? coins) = coins ∧
    (∀ coins' : List Coin, (∀ c ∈ coins', c.WellFormed) →
      attached? coins = attached? coins' → coins = coins') ∧
    (∀ {σ : Type} (node : Node σ) (target message : Json),
      Logged.Leaves (Ledger.HandsOver message coins)
        (Ledger.execute node.noted target message coins)) ∧
    read (coins.map fun c => .value c.toJson) = .ok coins ∧
    read (coins.map .coin) = .ok coins := by
  refine ⟨attach_of_isWritable fun c hc => (h c hc).isWritable_denom, attached?_eq_none_iff,
    detached_attached? h, ?_, ?_, read_values coins, read_coins coins⟩
  · exact fun coins' h' hsame => attached?_inj h h' hsame
  · exact fun node target message => Ledger.leaves_handsOver node target message h

/-- Three coins; the digits of a denomination and those of the next amount have only a comma between
them. -/
def threeFees : List Coin :=
  [⟨"1", .str "u2"⟩, ⟨"007", .str "ibc/27394FB0"⟩, ⟨"3", .str "factory/osmo1x:a.b_c-9"⟩]

theorem wellFormed_threeFees : ∀ c ∈ threeFees, c.WellFormed := by
  simp only [threeFees, List.forall_mem_cons]
  refine ⟨?_, ?_, ?_, nofun⟩
  all_goals
    refine ⟨⟨by decide, List.all_eq_true.1 ?_⟩, _, rfl, ⟨_, rfl, ?_⟩, List.all_eq_true.1 ?_⟩
    all_goals decide

theorem attached_reads_back_threeFees :
    let fees := text "1u2,007ibc/27394FB0,3factory/osmo1x:a.b_c-9"
    (∀ c ∈ threeFees, c.WellFormed) ∧
      attached? threeFees = some fees ∧
      detached (some fees) = threeFees ∧
      attached? threeFees ≠ attached? threeFees.reverse ∧
      Logged.Leaves (Ledger.HandsOver (.str "claim") threeFees)
        (Ledger.execute Ledger.sparing.noted (.str "osmo1contract") (.str "claim") threeFees) ∧
      read (threeFees.map fun c => .value c.toJson) = .ok threeFees := by
  have hreverse : ∀ c ∈ threeFees.reverse, c.WellFormed := fun c hc =>
    wellFormed_threeFees c (List.mem_reverse.1 hc)
  have hne : threeFees ≠ threeFees.reverse := fun hsame =>
    absurd (congrArg (List.map Coin.amount) hsame) (by decide)
  obtain ⟨-, -, hdetached, hinj, hhands, hvalues, -⟩ := attached_reads_back wellFormed_threeFees
  exact ⟨wellFormed_threeFees, rfl, hdetached, mt (hinj _ hreverse) hne, hhands _ _ _, hvalues⟩

end Funds

end CrossChain
