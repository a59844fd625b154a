import CrossChain.Proofs.Scenario.Journal

/-!
# Recoveries

The scenarios in which coins come back end alike: what the account that recovers has in the
recoveries of its kernel is read and compared, the message that withdraws is sent, and the
recoveries are read again.  In the journal of every run, whatever the chains and the relayer did, a
withdrawal stands right after such a reading of one matching record; and a run that succeeds ends
with the three calls, the last of which found nothing left (`Settles`).  The checks that a relay may
skip come before, and skip none of this (`recoveries_sound`).
-/

namespace CrossChain

/-- Where the first entries have not the property, an entry that has it comes after them. -/
theorem List.split_after {α : Type} {P : α → Prop} {q l before after : List α} {x : α}
    (hq : ∀ y ∈ q, ¬ P y) (hx : P x) (h : q ++ l = before ++ x :: after) :
    ∃ before', before = q ++ before' ∧ l = before' ++ x :: after := by
  rcases List.split_append_cons h with ⟨before', hbefore, hl⟩ | ⟨rest, hrest, -⟩
  · exact ⟨before', hbefore, hl⟩
  · exact absurd hx (hq x (hrest ▸ List.mem_append_right before List.mem_cons_self))

namespace Scenario

open JournalEntry (Plain)

variable {σ : Type}

/-! ## Records -/

/-- The coins that an answer to the query for recoveries says. -/
def recorded (answer : Json) : Except Failure (List Coin) :=
  Funds.ofJson (if answer.isEmpty then .arr [] else answer)

/-- An answer says exactly one record, equal to a coin in amount and denomination. -/
def OneRecord (expected : Coin) (answer : Json) : Prop :=
  ∃ found, recorded answer = .ok [found] ∧ found.amount = expected.amount ∧
    found.denom.equals expected.denom = true

/-- Asking a kernel what an account may recover. -/
def reading (side : Side) (kernel : Contract) (owner : Text) (ended : Except Failure Json) :
    JournalEntry :=
  .asked side ⟨.query kernel.address (ContractMessage.recoveries owner).toJson, ended⟩

/-- Telling a kernel to pay out what the sender may recover. -/
def withdrawing (side : Side) (kernel : Contract) (ended : Except Failure Text) : JournalEntry :=
  .asked side ⟨.execute kernel.address ContractMessage.recover.toJson [], ended⟩

/-- A journal, and how the run ended, of a scenario in which an account recovers a coin on a
chain. -/
structure Settles (side : Side) (e : Endpoint σ) (owner : Text) (expected : Coin)
    (l : List JournalEntry) (ended : Except Failure Text) : Prop where
  /-- Every withdrawal is one by the kernel of the chain, right after exactly one record was read
  there for the account, equal to the coin. -/
  guarded : ∀ before x after, l = before ++ x :: after → x.Withdraws →
    ∃ kernel earlier answer result, e.kernel = .ok kernel ∧
      before = earlier ++ [reading side kernel owner (.ok answer)] ∧
      OneRecord expected answer ∧ x = withdrawing side kernel result
  /-- A success names the account, and came of a withdrawal with a hash, after which nothing was
  left to recover. -/
  settled : ∀ a, ended = .ok a → a = owner ∧
    ∃ kernel earlier answer hash left, e.kernel = .ok kernel ∧
      l = earlier ++ [reading side kernel owner (.ok answer), withdrawing side kernel (.ok hash),
        reading side kernel owner (.ok left)] ∧
      OneRecord expected answer ∧ hash ≠ [] ∧ recorded left = .ok []

section Settles

variable {side : Side} {e : Endpoint σ} {owner : Text} {expected : Coin} {l q : List JournalEntry}
  {ended : Except Failure Text}

theorem settles_of_error (hl : ∀ x ∈ l, ¬ x.Withdraws) (err : Failure) :
    Settles side e owner expected l (.error err) where
  guarded before x _ h hx :=
    absurd hx (hl x (h ▸ List.mem_append_right before List.mem_cons_self))
  settled := nofun

theorem Settles.prepend (h : Settles side e owner expected l ended)
    (hq : ∀ x ∈ q, ¬ x.Withdraws) : Settles side e owner expected (q ++ l) ended where
  guarded before x after hsplit hx := by
    obtain ⟨before', rfl, hl⟩ := List.split_after hq hx hsplit
    obtain ⟨kernel, earlier, answer, result, hkernel, rfl, hrecord, hwithdrawing⟩ :=
      h.guarded before' x after hl hx
    exact ⟨kernel, q ++ earlier, answer, result, hkernel, (List.append_assoc ..).symm, hrecord,
      hwithdrawing⟩
  settled a ha := by
    obtain ⟨howner, kernel, earlier, answer, hash, left, hkernel, rfl, hrest⟩ := h.settled a ha
    exact ⟨howner, kernel, q ++ earlier, answer, hash, left, hkernel,
      (List.append_assoc ..).symm, hrest⟩

/-- What comes of a withdrawal right after one record was read. -/
theorem settles_of_guarded {kernel : Contract} {answer : Json} {result : Except Failure Text}
    {rest : List JournalEntry} (hkernel : e.kernel = .ok kernel)
    (hrecord : OneRecord expected answer) (hrest : ∀ x ∈ rest, ¬ x.Withdraws)
    (hended : ∀ a, ended = .ok a → a = owner ∧ ∃ hash left, result = .ok hash ∧ hash ≠ [] ∧
      rest = [reading side kernel owner (.ok left)] ∧ recorded left = .ok []) :
    Settles side e owner expected
      (reading side kernel owner (.ok answer) :: withdrawing side kernel result :: rest) ended where
  guarded before x after hsplit hx := by
    have hread : ∀ y ∈ [reading side kernel owner (.ok answer)], ¬ y.Withdraws :=
      List.forall_mem_singleton.2 id
    obtain ⟨before', rfl, hl⟩ := List.split_after hread hx hsplit
    cases before' with
    | nil =>
      obtain ⟨rfl, -⟩ := List.cons.inj hl
      exact ⟨kernel, [], answer, result, hkernel, rfl, hrecord, rfl⟩
    | cons y before' =>
      obtain ⟨-, rfl⟩ := List.cons.inj hl
      exact absurd hx (hrest x (List.mem_append_right before' List.mem_cons_self))
  settled a ha := by
    obtain ⟨howner, hash, left, rfl, hhash, rfl, hleft⟩ := hended a ha
    exact ⟨howner, kernel, [], answer, hash, left, hkernel, rfl, hrecord, hhash, hleft⟩

end Settles

/-! ## Reading and withdrawing -/

section Parts

variable (side : Side) (e : Endpoint σ) (owner : Text) (expected : Coin)

/-- Reading the recoveries is one call. -/
theorem leaves_recoveries :
    Logged.Leaves
      (fun l ended => (∀ x ∈ l, ¬ JournalEntry.Withdraws x) ∧ ∀ coins, ended = .ok coins →
        ∃ kernel answer, e.kernel = .ok kernel ∧ l = [reading side kernel owner (.ok answer)] ∧
          recorded answer = .ok coins)
      ((e.noted side).recoveries owner) := by
  refine Logged.leaves_ofExcept_bind (fun err => ⟨nofun, nofun⟩) fun kernel hkernel => ?_
  have hread : ∀ ended, ∀ x ∈ [reading side kernel owner ended], ¬ JournalEntry.Withdraws x :=
    fun _ => List.forall_mem_singleton.2 id
  refine (notes_call side e (.query kernel.address
    (ContractMessage.recoveries owner).toJson)).bind (fun err => ⟨hread _, nofun⟩) fun answer => ?_
  refine Logged.leaves_ofExcept ⟨hread _, fun coins hcoins => ?_⟩
  exact ⟨kernel, answer, hkernel, rfl, hcoins⟩

/-- A check of the recoveries that passes has read one record. -/
theorem leaves_checkRecovery :
    Logged.Leaves
      (fun l ended => (∀ x ∈ l, ¬ JournalEntry.Withdraws x) ∧ ∀ found, ended = .ok found →
        ∃ kernel answer, e.kernel = .ok kernel ∧ l = [reading side kernel owner (.ok answer)] ∧
          OneRecord expected answer)
      ((e.noted side).checkRecovery owner expected) := by
  refine (leaves_recoveries side e owner).bind (fun l err hl => ⟨hl.1, nofun⟩) ?_
  rintro l coins ⟨hl, hread⟩
  obtain ⟨kernel, answer, hkernel, rfl, hrecorded⟩ := hread coins rfl
  have hquiet : ∀ x ∈ [reading side kernel owner (.ok answer)] ++ [],
      ¬ JournalEntry.Withdraws x := hl
  match coins, hrecorded with
  | [], _ => exact Logged.leaves_throw ⟨hquiet, nofun⟩
  | _ :: _ :: _, _ => exact Logged.leaves_throw ⟨hquiet, nofun⟩
  | [found], hrecorded =>
    refine Logged.leaves_ite (fun _ => Logged.leaves_throw_bind ⟨hquiet, nofun⟩) fun hamount => ?_
    refine Logged.leaves_ite (fun _ => Logged.leaves_throw_bind ⟨hquiet, nofun⟩) fun hdenom => ?_
    refine Logged.leaves_pure ⟨hquiet, fun _ _ => ⟨kernel, answer, hkernel, rfl, ?_⟩⟩
    exact ⟨found, hrecorded, bne_eq_false_iff_eq.1 hamount, by simpa using hdenom⟩

/-- What a withdrawal leaves: at most one call, and where that was answered with a hash, a reading
after it. -/
inductive Withdrawn : List JournalEntry → Except Failure Unit → Prop
  | noKernel (err : Failure) : Withdrawn [] (.error err)
  | stopped (err : Failure) {kernel : Contract} (result : Except Failure Text)
    {rest : List JournalEntry} (hkernel : e.kernel = .ok kernel)
    (hrest : ∀ x ∈ rest, ¬ x.Withdraws) :
    Withdrawn (withdrawing side kernel result :: rest) (.error err)
  | done {kernel : Contract} {hash : Text} {left : Json} (hkernel : e.kernel = .ok kernel)
    (hhash : hash ≠ []) (hleft : recorded left = .ok []) :
    Withdrawn [withdrawing side kernel (.ok hash), reading side kernel owner (.ok left)] (.ok ())

theorem leaves_recover :
    Logged.Leaves (Withdrawn side e owner) (recover (e.noted side) owner) := by
  refine Logged.leaves_ofExcept_bind (fun err => .noKernel err) fun kernel hkernel => ?_
  refine (notes_call side e (.execute kernel.address ContractMessage.recover.toJson [])).bind
    (fun err => .stopped err _ hkernel nofun) fun hash => ?_
  refine Logged.leaves_ite
    (fun _ => Logged.leaves_throw_bind (.stopped _ (.ok hash) hkernel nofun)) fun hhash => ?_
  refine (leaves_recoveries side e owner).bind
    (fun l err hl => .stopped err (.ok hash) hkernel hl.1) ?_
  rintro l coins ⟨hl, hread⟩
  obtain ⟨kernel', left, hkernel', rfl, hrecorded⟩ := hread coins rfl
  obtain rfl := Except.ok.inj (hkernel.symm.trans hkernel')
  refine Logged.leaves_ite (fun _ => Logged.leaves_throw (.stopped _ (.ok hash) hkernel hl))
    fun hleft => Logged.leaves_pure (.done hkernel ?_ ?_)
  · rintro rfl
    cases hhash
  · have hnone : coins = [] := by simpa using hleft
    rw [hrecorded, hnone]

/-- Reading one record, withdrawing, and naming the account. -/
theorem leaves_settling :
    Logged.Leaves (Settles side e owner expected) (do
      let _ ← (e.noted side).checkRecovery owner expected
      recover (e.noted side) owner
      return owner) := by
  refine (leaves_checkRecovery side e owner expected).bind
    (fun l err hl => settles_of_error hl.1 err) ?_
  rintro l found ⟨hl, hread⟩
  obtain ⟨kernel, answer, hkernel, rfl, hrecord⟩ := hread found rfl
  have hsettles : ∀ l ended, Withdrawn side e owner l ended →
      Settles side e owner expected ([reading side kernel owner (.ok answer)] ++ l)
        (ended.map fun _ => owner) := by
    intro l ended h
    cases h with
    | noKernel err => exact settles_of_error hl err
    | @stopped err kernel' result rest hkernel' hrest =>
      obtain rfl := Except.ok.inj (hkernel.symm.trans hkernel')
      exact settles_of_guarded hkernel hrecord hrest nofun
    | @done kernel' hash left hkernel' hhash hleft =>
      obtain rfl := Except.ok.inj (hkernel.symm.trans hkernel')
      refine settles_of_guarded hkernel hrecord (List.forall_mem_singleton.2 id) fun a ha => ?_
      exact ⟨(Except.ok.inj ha).symm, hash, left, rfl, hhash, rfl, hleft⟩
  refine (leaves_recover side e owner).bind (fun l err hl => hsettles l _ hl) fun l _ hl => ?_
  refine Logged.leaves_pure ?_
  rw [List.append_nil]
  exact hsettles l _ hl

end Parts

/-! ## Scenarios -/

/-- A scenario settles, and where its checked relay succeeded with the first sweep, that sweep moved
one packet from a side with one acknowledgement of the given kind. -/
structure Recovers [Json.Limits] (success : Bool) (source side : Side) (e : Endpoint σ)
    (owner : Text) (expected : Coin) (l : List JournalEntry) (ended : Except Failure Text) :
    Prop extends
    Settles side e owner expected l ended where
  checked : ∀ a, ended = .ok a → ChecksFirst success source l

section Composition

variable {r : Relayer σ} {o : Outside σ} {c : Campaign σ} {success : Bool} {source side : Side}
  {e : Endpoint σ} {owner : Text} {expected : Coin} {α : Type}
  {x : Act (Logged JournalEntry σ) α} {f : α → Act (Logged JournalEntry σ) Text}

theorem leaves_settles_bind
    (hx : Logged.Leaves (fun l _ => ∀ y ∈ l, ¬ JournalEntry.Withdraws y) x)
    (hf : ∀ a, Logged.Leaves (Settles side e owner expected) (f a)) :
    Logged.Leaves (Settles side e owner expected) (x >>= f) :=
  hx.after (fun _ err hl => settles_of_error hl err) (fun _ _ _ hl h => h.prepend hl) hf

theorem leaves_recovers_bind [Json.Limits] (hx : Logged.Leaves (fun l _ => ∀ y ∈ l, Plain y) x)
    (hf : ∀ a, Logged.Leaves (Recovers success source side e owner expected) (f a)) :
    Logged.Leaves (Recovers success source side e owner expected) (x >>= f) := by
  refine hx.after (fun l err hl => ⟨settles_of_error (fun y hy => (hl y hy).2) err, nofun⟩) ?_ hf
  intro l l' ended hl h
  exact ⟨h.toSettles.prepend fun y hy => (hl y hy).2, fun a ha => (h.checked a ha).prepend hl⟩

theorem leaves_relayOne_bind [Json.Limits] {f : Unit → Act (Logged JournalEntry σ) Text}
    (hf : ∀ u, Logged.Leaves (Settles side e owner expected) (f u)) :
    Logged.Leaves (Recovers success source side e owner expected)
      (relayOne r.noted o.noted c.noted success source >>= f) := by
  refine leaves_relayOne.bind (fun l err hl => ⟨settles_of_error hl.1 err, nofun⟩) ?_
  rintro l u ⟨hl, hchecked⟩
  refine (hf u).mono fun l' ended h => ⟨h.prepend hl, fun _ _ => ?_⟩
  exact (hchecked rfl).append l'

end Composition

section Runs

variable (r : Relayer σ) (o : Outside σ) (c : Campaign σ) (coin : Coin)

theorem plain_makeSplitter (side : Side) (e : Endpoint σ) (recipients : List SplitterRecipient) :
    Logged.Leaves (fun l _ => ∀ x ∈ l, Plain x) (makeSplitter (e.noted side) recipients) :=
  (leaves_makeSplitter side e recipients).mono fun _ _ h => h.1

theorem leaves_checkBalance (side : Side) (e : Endpoint σ) (address : Json) (expected : Coin) :
    Logged.Leaves
      (fun l ended => (∀ x ∈ l, ¬ JournalEntry.Withdraws x) ∧ (ended = .ok () →
        ∃ held : Coin, l = [.asked side ⟨.balance address expected.denom, .ok held⟩] ∧
          held.amount = expected.amount))
      ((e.noted side).checkBalance address expected) := by
  have hquiet : ∀ ended, ∀ x ∈ [JournalEntry.asked side ⟨.balance address expected.denom, ended⟩],
      ¬ JournalEntry.Withdraws x := fun _ => List.forall_mem_singleton.2 id
  refine (notes_call side e (.balance address expected.denom)).bind
    (fun err => ⟨hquiet _, nofun⟩) fun held => ?_
  refine Logged.leaves_ite (fun _ => Logged.leaves_throw ⟨hquiet _, nofun⟩) fun hamount => ?_
  refine Logged.leaves_pure ⟨hquiet _, fun _ => ⟨held, rfl, ?_⟩⟩
  exact bne_eq_false_iff_eq.1 hamount

theorem recovers_sendFailingCall [Json.Limits] :
    Logged.Leaves (Recovers false .a .a c.a c.a.client.sender coin)
      (sendFailingCall r.noted o.noted c.noted coin) := by
  refine leaves_recovers_bind (Logged.leaves_of_adds (within_freshAddress o _)) fun receiver => ?_
  refine leaves_recovers_bind (plain_makeSplitter .b c.b _) fun splitter => ?_
  refine leaves_recovers_bind (Logged.leaves_of_adds (within_send .a c.a _ _ _ _)) fun hash => ?_
  refine leaves_relayOne_bind fun _ => ?_
  refine leaves_settles_bind ((leaves_checkBalance .b c.b _ _).mono fun _ _ h => h.1) fun _ => ?_
  exact leaves_settling .a c.a c.a.client.sender coin

theorem recovers_sendFailingReturn [Json.Limits] :
    Logged.Leaves
      (Recovers true .a .b c.b c.b.client.sender ⟨coin.amount, .str c.b.ibcDenom⟩)
      (sendFailingReturn r.noted o.noted c.noted coin) := by
  refine leaves_recovers_bind (Logged.leaves_of_adds (within_freshAddress o _)) fun receiver => ?_
  refine leaves_recovers_bind (plain_makeSplitter .b c.b _) fun splitter => ?_
  refine leaves_recovers_bind (Logged.leaves_of_adds (within_send .a c.a _ _ _ _)) fun hash => ?_
  refine leaves_relayOne_bind fun _ => ?_
  refine leaves_settles_bind (Logged.leaves_of_adds within_relay) fun _ => ?_
  exact leaves_settling .b c.b c.b.client.sender _

theorem recovers_sendDefaultRecovery [Json.Limits] :
    Logged.Leaves (Recovers false .b .b c.b c.b.client.sender coin)
      (sendDefaultRecovery r.noted o.noted c.noted coin) := by
  refine leaves_recovers_bind (Logged.leaves_of_adds (within_freshAddress o _)) fun receiver => ?_
  refine leaves_recovers_bind (plain_makeSplitter .b c.b _) fun splitter => ?_
  refine leaves_recovers_bind (Logged.leaves_of_adds (within_send .b c.b _ _ _ _)) fun hash => ?_
  exact leaves_relayOne_bind fun _ => leaves_settling .b c.b c.b.client.sender coin

/-- Before any withdrawal, a splitter that was made on chain B was found to have nothing of the
denomination that coins of chain A have there. -/
def KeepsNothing (l : List JournalEntry) : Prop :=
  ∃ earlier later splitter code body, ∃ held : Coin,
    l = earlier ++
      .asked .b ⟨.balance (.str splitter) (.str c.b.ibcDenom), .ok held⟩ :: later ∧
    .asked .b ⟨.instantiate code body "splitter", .ok splitter⟩ ∈ earlier ∧
    (∀ x ∈ earlier, ¬ x.Withdraws) ∧ held.amount = text "0"

/-- The refused call leaves nothing with the splitter. -/
theorem keepsNothing_sendFailingCall [Json.Limits] :
    Logged.Leaves (fun l ended => ∀ a, ended = .ok a → KeepsNothing c l)
      (sendFailingCall r.noted o.noted c.noted coin) := by
  refine Logged.Leaves.bind (Logged.leaves_of_adds (within_freshAddress o _))
    (fun _ _ _ => nofun) fun l₁ receiver h₁ => ?_
  refine (leaves_makeSplitter .b c.b _).bind (fun _ _ _ => nofun) fun l₂ splitter h₂ => ?_
  refine Logged.Leaves.bind (Logged.leaves_of_adds (within_send .a c.a _ _ _ _))
    (fun _ _ _ => nofun) fun l₃ hash h₃ => ?_
  refine Logged.Leaves.bind leaves_relayOne (fun _ _ _ => nofun) fun l₄ _ h₄ => ?_
  refine (leaves_checkBalance .b c.b _ _).bind (fun _ _ _ => nofun) fun l₅ _ h₅ => ?_
  obtain ⟨code, body, hmade⟩ := h₂.2 splitter rfl
  obtain ⟨held, hread, hnothing⟩ := h₅.2 rfl
  refine (leaves_settling .a c.a c.a.client.sender coin).mono fun l₆ ended _ a _ => ?_
  refine ⟨l₁ ++ (l₂ ++ (l₃ ++ l₄)), l₆, splitter.address, code, body, held, ?_, ?_, ?_, hnothing⟩
  · rw [hread]
    simp only [List.append_assoc, List.singleton_append]
    rfl
  · exact List.mem_append_right _ (List.mem_append_left _ hmade)
  · intro x hx
    simp only [List.mem_append] at hx
    rcases hx with hx | hx | hx | hx
    · exact (h₁ x hx).2
    · exact (h₂.1 x hx).2
    · exact (h₃ x hx).2
    · exact h₄.1 x hx

/-- Whatever the chains and the relayer do: each of the three scenarios withdraws only right after
it read exactly one record of the account that recovers, equal to the coin that was sent, or to its
amount in the denomination that coins of chain A have on B; it succeeds only after a withdrawal with
a hash that left nothing to recover; and where the relay that is checked succeeded with its first
sweep, this moved exactly one packet in the expected direction with exactly one acknowledgement of
the expected kind.  The call that is refused moreover leaves nothing with the splitter. -/
theorem recoveries_sound [Json.Limits] :
    Logged.Leaves
        (fun l ended => Recovers false .a .a c.a c.a.client.sender coin l ended ∧
          ∀ a, ended = .ok a → KeepsNothing c l)
        (sendFailingCall r.noted o.noted c.noted coin) ∧
      Logged.Leaves
        (Recovers true .a .b c.b c.b.client.sender ⟨coin.amount, .str c.b.ibcDenom⟩)
        (sendFailingReturn r.noted o.noted c.noted coin) ∧
      Logged.Leaves (Recovers false .b .b c.b c.b.client.sender coin)
        (sendDefaultRecovery r.noted o.noted c.noted coin) :=
  ⟨(recovers_sendFailingCall r o c coin).and (keepsNothing_sendFailingCall r o c coin),
    recovers_sendFailingReturn r o c coin, recovers_sendDefaultRecovery r o c coin⟩

end Runs

end Scenario

end CrossChain
