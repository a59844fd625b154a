import CrossChain.Ledger
import CrossChain.Proofs.Funds
import CrossChain.Proofs.Log
import Mathlib.Data.List.Forall2

/-!
# What operations ask of a ledger

A transaction is broadcast, waited for and checked, in this order and up to the first of the three
that fails (`Transacts`).  An operation on a contract makes one transaction after the contract is
opened (`Executes`); sending coins makes one for each coin, in order and up to the first that does
not go through (`Sends`).
-/

namespace CrossChain

/-- A call to a ledger, and how it ended. -/
structure LedgerEntry where
  call : LedgerCall
  ended : Except Failure call.Answer

/-- The node that notes every call. -/
def Node.noted {σ : Type} (node : Node σ) : Node (Logged LedgerEntry σ) where
  address := node.address
  answer call := Logged.noting (fun ended => ⟨call, ended⟩) (node call)

/-- A call hands a transaction to the ledger that has to be waited for. -/
def LedgerCall.isBroadcast : LedgerCall → Bool
  | execute .. | sendTokens .. => true
  | _ => false

/-- An entry is that of a broadcast. -/
def LedgerEntry.IsBroadcast (entry : LedgerEntry) : Prop := entry.call.isBroadcast = true

namespace Ledger

/-! ## Entries -/

/-- Opening the contract at an address. -/
def opened (account : Text) (ended : Except Failure Unit) : LedgerEntry :=
  ⟨.contract none none (some (.str account)), ended⟩

/-- Broadcasting a message with funds to the open contract. -/
def executed (message : Json) (funds : List Coin) (ended : Except Failure Text) : LedgerEntry :=
  ⟨.execute message (Funds.attached? funds), ended⟩

/-- Broadcasting an amount to an account. -/
def sent (account : Text) (amount : Int) (denom : Json) (ended : Except Failure Text) :
    LedgerEntry := ⟨.sendTokens account amount denom, ended⟩

/-- Waiting for the transaction sent last. -/
def awaited (ended : Except Failure Unit) : LedgerEntry :=
  ⟨.await Settings.broadcastTimeout Settings.pollInterval, ended⟩

/-- Checking the transaction sent last. -/
def checked (ended : Except Failure Unit) : LedgerEntry := ⟨.check, ended⟩

/-! ## Transactions -/

/-- The entries of a transaction and its end: `broadcast` is the entry of its broadcast. -/
inductive Transacts (broadcast : Except Failure Text → LedgerEntry) :
    List LedgerEntry → Except Failure Text → Prop
  | settled (hash : Text) :
    Transacts broadcast [broadcast (.ok hash), awaited (.ok ()), checked (.ok ())] (.ok hash)
  | unsent (e : Failure) : Transacts broadcast [broadcast (.error e)] (.error e)
  | unawaited (hash : Text) (e : Failure) :
    Transacts broadcast [broadcast (.ok hash), awaited (.error e)] (.error e)
  | unchecked (hash : Text) (e : Failure) :
    Transacts broadcast [broadcast (.ok hash), awaited (.ok ()), checked (.error e)] (.error e)

/-! ## Operations -/

section Addresses

-- How a node reads account addresses off values.
variable (address : Json → Except Failure Text)

/-- The entries of a message to a contract and its end, before it is told as a refusal. -/
inductive Executes (target message : Json) (funds : List Coin) :
    List LedgerEntry → Except Failure Text → Prop
  | noAccount (e : Failure) (h : address target = .error e) :
    Executes target message funds [] (.error e)
  | unopened (account : Text) (e : Failure) (h : address target = .ok account) :
    Executes target message funds [opened account (.error e)] (.error e)
  | unwritten (account : Text) (e : Failure) (h : address target = .ok account)
    (hfunds : Funds.attach funds = .error e) :
    Executes target message funds [opened account (.ok ())] (.error e)
  | transacted (account : Text) (l : List LedgerEntry) (r : Except Failure Text)
    (h : address target = .ok account) (hl : Transacts (executed message funds) l r) :
    Executes target message funds (opened account (.ok ()) :: l) r

/-- The entries of one coin to an account and their end. -/
inductive Pays (recipient : Json) (coin : Coin) : List LedgerEntry → Except Failure Text → Prop
  | noAccount (e : Failure) (h : address recipient = .error e) : Pays recipient coin [] (.error e)
  | noAmount (account : Text) (e : Failure) (h : address recipient = .ok account)
    (hamount : Text.toInt coin.amount = .error e) : Pays recipient coin [] (.error e)
  | transacted (account : Text) (amount : Int) (l : List LedgerEntry) (r : Except Failure Text)
    (h : address recipient = .ok account) (hamount : Text.toInt coin.amount = .ok amount)
    (hl : Transacts (sent account amount coin.denom) l r) : Pays recipient coin l r

/-- A transfer that went through. -/
structure Transfer where
  account : Text
  amount : Int
  denom : Json
  hash : Text

namespace Transfer

/-- The entries of a transfer that went through. -/
def entries (t : Transfer) : List LedgerEntry :=
  [sent t.account t.amount t.denom (.ok t.hash), awaited (.ok ()), checked (.ok ())]

/-- A transfer moves a coin to a recipient. -/
structure Moves (recipient : Json) (coin : Coin) (t : Transfer) : Prop where
  account : address recipient = .ok t.account
  amount : Text.toInt coin.amount = .ok t.amount
  denom : t.denom = coin.denom

end Transfer

/-- The entries of sending coins and their end: every coin was moved, and the hash is that of the
last one, or some coin was not, and nothing was asked for those after it. -/
inductive Sends (recipient : Json) (coins : List Coin) :
    List LedgerEntry → Except Failure (Option Text) → Prop
  | all (done : List Transfer) (h : List.Forall₂ (Transfer.Moves address recipient) coins done) :
    Sends recipient coins (done.flatMap Transfer.entries)
      (.ok (done.getLast?.map Transfer.hash))
  | upTo (before : List Coin) (coin : Coin) (after : List Coin) (done : List Transfer)
    (l : List LedgerEntry) (e : Failure) (split : coins = before ++ coin :: after)
    (h : List.Forall₂ (Transfer.Moves address recipient) before done)
    (hl : Pays address recipient coin l (.error e)) :
    Sends recipient coins (done.flatMap Transfer.entries ++ l) (.error e)

variable {address}

theorem Sends.cons {recipient : Json} {coin : Coin} {coins : List Coin} {t : Transfer}
    {l : List LedgerEntry} {r : Except Failure (Option Text)} (ht : t.Moves address recipient coin)
    (h : Sends address recipient coins l r) :
    Sends address recipient (coin :: coins) (t.entries ++ l) (r.map (·.or (some t.hash))) := by
  cases h with
  | all done hdone =>
    have hall := Sends.all (t :: done) (.cons ht hdone)
    have hlast : (done.getLast?.map Transfer.hash).or (some t.hash) =
        (t :: done).getLast?.map Transfer.hash := by
      rw [List.getLast?_cons]
      cases done.getLast? <;> rfl
    rwa [List.flatMap_cons, ← hlast] at hall
  | upTo before stopped after done l e split hbefore hl =>
    have hupTo := Sends.upTo (coin :: before) stopped after (t :: done) l e
      (congrArg (coin :: ·) split) (.cons ht hbefore) hl
    rwa [List.flatMap_cons, List.append_assoc] at hupTo

theorem Sends.of_error {recipient : Json} {coin : Coin} {l : List LedgerEntry} {e : Failure}
    (coins : List Coin) (h : Pays address recipient coin l (.error e)) :
    Sends address recipient (coin :: coins) l (.error e) :=
  .upTo [] coin coins [] l e rfl .nil h

end Addresses

/-! ## What operations leave -/

/-- A failure of an operation on a contract, told as a refusal of the contract. -/
def refusal (target : Json) (about : Except Failure Text) (e : Failure) : Failure :=
  match about with
  | .ok done => .refused target (done ++ " failed: " ++ e.message)
  | .error unsaid => unsaid

section Operations

variable {σ : Type} (node : Node σ)

theorem notes_noted (call : LedgerCall) :
    Logged.Notes (fun ended => LedgerEntry.mk call ended) (node.noted call) :=
  Logged.notes_noting _ _

theorem leaves_refusing {α : Type} {P : List LedgerEntry → Except Failure α → Prop}
    {act : Act (Logged LedgerEntry σ) α} (target : Json) (about : Except Failure Text)
    (h : Logged.Leaves P act) :
    Logged.Leaves (fun l r => ∃ r', P l r' ∧ r = r'.mapError (refusal target about))
      (refusing target about act) := by
  intro s
  obtain ⟨l, r, t, hrun, hP⟩ := h s
  refine ⟨l, r.mapError (refusal target about), t, ?_, r, hP, rfl⟩
  cases r with
  | ok a =>
    rw [refusing, Act.outcome, Act.bind_run_ok (Act.attempt_run_ok (Act.run_of_outcome_ok hrun))]
    rfl
  | error e =>
    rw [refusing, Act.outcome,
      Act.bind_run_ok (Act.attempt_run_error (Act.run_of_outcome_error hrun))]
    cases about <;> rfl

theorem leaves_settle {broadcast : Except Failure Text → LedgerEntry}
    {act : Act (Logged LedgerEntry σ) Text} (h : Logged.Notes broadcast act) :
    Logged.Leaves (Transacts broadcast) (act >>= settle node.noted) := by
  refine h.bind .unsent fun hash => ?_
  refine (notes_noted node _).bind (.unawaited hash) fun _ => ?_
  refine (notes_noted node _).bind (.unchecked hash) fun _ => ?_
  exact Logged.leaves_pure (.settled hash)

/-- What comes after a transaction is done if the transaction settled. -/
theorem leaves_settle_bind {α : Type} {R : List LedgerEntry → Except Failure α → Prop}
    {broadcast : Except Failure Text → LedgerEntry} {act : Act (Logged LedgerEntry σ) Text}
    {next : Text → Act (Logged LedgerEntry σ) α} (h : Logged.Notes broadcast act)
    (herror : ∀ l e, Transacts broadcast l (.error e) → R l (.error e))
    (hnext : ∀ l hash, Transacts broadcast l (.ok hash) →
      Logged.Leaves (fun l' r => R (l ++ l') r) (next hash)) :
    Logged.Leaves R (do
      let hash ← settle node.noted (← act)
      next hash) := by
  rw [← bind_assoc]
  exact (leaves_settle node h).bind herror hnext

theorem leaves_execute (target message : Json) (funds : List Coin) :
    Logged.Leaves
      (fun l r => ∃ r', Executes node.address target message funds l r' ∧
        r = r'.mapError (refusal target (doing "execute" message)))
      (execute node.noted target message funds) := by
  refine leaves_refusing target _ ?_
  refine Logged.leaves_ofExcept_bind_cases .noAccount fun account haccount => ?_
  refine (notes_noted node _).bind (.unopened account · haccount) fun _ => ?_
  refine Logged.leaves_ofExcept_bind_cases (.unwritten account · haccount) fun attached hfunds => ?_
  obtain rfl := Funds.eq_of_attach_eq_ok hfunds
  refine (leaves_settle node (notes_noted node (.execute message (Funds.attached? funds)))).mono ?_
  exact fun l r hl => .transacted account l r haccount hl

theorem leaves_sendTokens (recipient : Json) (coins : List Coin) (hash : Option Text) :
    Logged.Leaves
      (fun l r => ∃ r', Sends node.address recipient coins l r' ∧ r = r'.map (·.or hash))
      (sendTokens node.noted recipient hash coins) := by
  induction coins generalizing hash with
  | nil => exact Logged.leaves_pure ⟨_, .all [] .nil, rfl⟩
  | cons coin rest ih =>
    refine Logged.leaves_ofExcept_bind_cases ?_ fun account haccount => ?_
    · exact fun e h => ⟨_, .of_error rest (.noAccount e h), rfl⟩
    refine Logged.leaves_ofExcept_bind_cases ?_ fun amount hamount => ?_
    · exact fun e h => ⟨_, .of_error rest (.noAmount account e haccount h), rfl⟩
    refine leaves_settle_bind node
      (notes_noted node (.sendTokens account amount coin.denom)) ?_ fun l last hl => ?_
    · intro l e hl
      exact ⟨_, .of_error rest (.transacted account amount l _ haccount hamount hl), rfl⟩
    cases hl
    have ht : Transfer.Moves node.address recipient coin ⟨account, amount, coin.denom, last⟩ :=
      ⟨haccount, hamount, rfl⟩
    refine (ih (some last)).mono fun l r hr => ?_
    obtain ⟨r', hsends, rfl⟩ := hr
    refine ⟨_, hsends.cons ht, ?_⟩
    cases r' with
    | error e => rfl
    | ok last => cases last <;> rfl

end Operations

end Ledger

end CrossChain
