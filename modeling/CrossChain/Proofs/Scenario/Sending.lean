import CrossChain.Proofs.Envelope.Body
import CrossChain.Proofs.Funds
import CrossChain.Proofs.Scenario.Journal

/-!
# Sending through the kernel

Sending coins asks a chain once: the kernel executes a message that says the coins which are
attached to it, the same ones in the same order (`send_asks_once`).  Nothing is asked if one of the
things given is no coin.
-/

namespace CrossChain

/-! ## What is sent -/

namespace Scenario

/-- How a message goes that is sent through the kernel: directly, with a reply on errors, and not
stopping at one; who may recover is said just if that is given. -/
def directConfig (recovery : Option RecoveryConfig) : Json :=
  .obj (("reply_on", .str "error") :: ("exit_at_error", .bool false) :: ("direct", .bool true) ::
    match recovery with
    | none => []
    | some who => [("ibc_config", who.toJson)])

/-- The message that sends coins with a call. -/
def sending (recipient call : Text) (coins : List Coin) (recovery : Option RecoveryConfig) : Json :=
  .obj [("send", .obj [("message", .obj
    [("recipient", .str recipient), ("message", .str call),
      ("funds", .arr (coins.map Coin.toJson)), ("config", directConfig recovery)])])]

/-- A text is the call of a body: empty if the body says nothing, and else what the body is read
from. -/
def IsCallOf [Json.Limits] (body : Json) (call : Text) : Prop :=
  (body ∈ Json.nothings → call = []) ∧
    (body ∉ Json.nothings → call ≠ [] ∧ BinaryBody.decode call = .ok body)

/-- A message that goes directly with a call. -/
def direct (recipient call : Text) (coins : List Coin) (recovery : Option RecoveryConfig) :
    RoutedMessage := { recipient, call, funds := coins, config := { recovery } }

theorem toJson_send_direct (recipient call : Text) (coins : List Coin)
    (recovery : Option RecoveryConfig) :
    (ContractMessage.send (direct recipient call coins recovery)).toJson =
      sending recipient call coins recovery := by
  cases recovery <;> rfl

/-- A body that can be read has a call, and coins make a message with it. -/
theorem routed_of_readable [Json.Limits] {body : Json} (hreadable : body.Readable Json.maxDepth)
    (hplain : body.Plain) :
    ∃ call, IsCallOf body call ∧ ∀ recipient coins recovery,
      RoutedMessage.routed recipient body (coins.map .coin) recovery =
        .ok (direct recipient call coins recovery) := by
  obtain ⟨call, hcall, hnone, hsome⟩ := RoutedMessage.callOf_of_readable hreadable hplain
  refine ⟨call, ⟨hnone.2, fun h => ⟨(hsome h).1, (hsome h).2.2⟩⟩,
    fun recipient coins recovery => ?_⟩
  rw [RoutedMessage.routed_of_callOf hcall, Funds.read_coins]
  rfl

section Send

variable {σ : Type} (side : Side) (e : Endpoint σ)

theorem outcome_send_of_unread {recipient : Text} {funds : List GivenCoin} {body : Json}
    {recovery : Option RecoveryConfig} {failure : Failure} (h : Funds.read funds = .error failure)
    (s : Logged JournalEntry σ) :
    (send (e.noted side) recipient funds body recovery).outcome s = (.error failure, s) := by
  rw [send, h]
  rfl

theorem notes_execute (contract : Contract) (m : ContractMessage) (coins : List Coin) :
    Logged.Notes
      (fun ended : Except Failure Text =>
        JournalEntry.asked side ⟨.execute contract.address m.toJson coins, ended⟩)
      (contract.execute (e.noted side).client m (coins.map .coin)) := by
  rw [Contract.execute_coins]
  exact notes_call side e (.execute contract.address m.toJson coins)

/-- The hash of a transaction, or a mismatch where the hash is empty. -/
def hashOf : Except Failure Text → Except Failure Text
  | .ok hash => if hash.isEmpty then .error (.mismatch .sendWithoutHash) else .ok hash
  | .error failure => .error failure

theorem hashOf_eq_ok_iff {ended : Except Failure Text} {hash : Text} :
    hashOf ended = .ok hash ↔ ended = .ok hash ∧ hash ≠ [] := by
  cases ended with
  | error failure => simp [hashOf]
  | ok hash' =>
    cases hash' with
    | nil => simp [hashOf]
    | cons c rest =>
      simp only [hashOf, List.isEmpty_cons, Bool.false_eq_true, if_false, Except.ok.injEq]
      exact ⟨fun h => ⟨h, h ▸ List.cons_ne_nil c rest⟩, And.left⟩

theorem outcome_send {kernel : Contract} {recipient : Text} {funds : List GivenCoin}
    {coins : List Coin} {body : Json} {recovery : Option RecoveryConfig} {message : RoutedMessage}
    (hkernel : Table.get? kernelName e.contracts = some kernel)
    (hcoins : Funds.read funds = .ok coins)
    (hmessage : RoutedMessage.routed recipient body (coins.map .coin) recovery = .ok message)
    (s : Logged JournalEntry σ) :
    ∃ ended t, (send (e.noted side) recipient funds body recovery).outcome s =
      (hashOf ended, ⟨s.log ++ [.asked side ⟨.execute kernel.address
        (ContractMessage.send message).toJson coins, ended⟩], t⟩) := by
  have hget : Table.get? kernelName (e.noted side).contracts = some kernel := hkernel
  have hfound : (e.noted side).kernel = .ok kernel := by
    rw [Endpoint.kernel, Endpoint.contract, hget]
  rw [send, hcoins, hfound]
  simp only [Act.ofExcept_ok, pure_bind, hmessage]
  rcases notes_execute side e kernel (.send message) coins s with
    ⟨hash, t, hrun⟩ | ⟨failure, t, hrun⟩
  · refine ⟨.ok hash, t, ?_⟩
    rw [Act.outcome, Act.bind_run_ok hrun, hashOf]
    cases hash <;> rfl
  · exact ⟨.error failure, t, by rw [Act.outcome, Act.bind_run_error hrun, hashOf]⟩

/-- Sending coins through a kernel asks the chain exactly once, and the kernel is to say the coins
that are attached to the message; the hash is given just if it is not empty.  Where one of the
things given is no coin, nothing is asked. -/
theorem send_asks_once [Json.Limits] {kernel : Contract}
    (hkernel : Table.get? kernelName e.contracts = some kernel) (recipient : Text)
    (funds : List GivenCoin) {body : Json} (hreadable : body.Readable Json.maxDepth)
    (hplain : body.Plain) (recovery : Option RecoveryConfig) (s : Logged JournalEntry σ) :
    (∀ coins, List.Forall₂ GivenCoin.Gives funds coins →
      ∃ call ended result t, IsCallOf body call ∧
        (send (e.noted side) recipient funds body recovery).outcome s =
          (result, ⟨s.log ++ [.asked side
            ⟨.execute kernel.address (sending recipient call coins recovery) coins, ended⟩], t⟩) ∧
        (∀ hash, result = .ok hash ↔ ended = .ok hash ∧ hash ≠ []) ∧
        (∀ failure, ended = .error failure → result = .error failure)) ∧
    ((∃ g ∈ funds, ∀ c, ¬ g.Gives c) →
      ∃ before g after failure, funds = before ++ g :: after ∧ (∀ b ∈ before, ∃ c, b.Gives c) ∧
        g.read = .error failure ∧
        (send (e.noted side) recipient funds body recovery).outcome s = (.error failure, s)) := by
  refine ⟨fun coins hcoins => ?_, fun hnone => ?_⟩
  · obtain ⟨call, hcall, hrouted⟩ := routed_of_readable hreadable hplain
    obtain ⟨ended, t, hrun⟩ := outcome_send side e hkernel (Funds.read_eq_ok_iff.2 hcoins)
      (hrouted recipient coins recovery) s
    rw [toJson_send_direct] at hrun
    refine ⟨call, ended, hashOf ended, t, hcall, hrun, fun hash => hashOf_eq_ok_iff, ?_⟩
    rintro failure rfl
    rfl
  · obtain ⟨before, g, after, failure, hsplit, hbefore, hg, hread⟩ := Funds.read_of_none hnone
    exact ⟨before, g, after, failure, hsplit, hbefore, hg, outcome_send_of_unread side e hread s⟩

end Send

/-- A chain on which every transaction goes through and nothing else does. -/
def accepting : ChainClient Unit where
  chainId := "localosmosis-1"
  sender := "osmo1sender"
  answer
    | .execute .. => return text "A1B2"
    | _ => throw (.broken "transactions only")

/-- An endpoint with a kernel. -/
def withKernel : Endpoint Unit where
  name := "osmo-a"
  definition := Settings.localChain (fun _ => none) "localhost" "osmo-a" "localosmosis-1" "OSMO_A"
    "20121" "20221"
  client := accepting
  contracts := [(kernelName, ⟨.str "osmo1kernel"⟩)]

/-- A body that says one number. -/
def countCall : Json := .obj [("count", .int 1)]

theorem send_asks_once_mixedFunds :
    ∃ call ended result t, IsCallOf countCall call ∧
      (send (withKernel.noted .a) "ibc://osmo-b/osmo1x"
          [.coin ⟨"5", .str "uosmo"⟩, .value (.obj [("denom", .str "uion"), ("amount", .int 7)])]
          countCall (some ⟨some "osmo1r"⟩)).outcome ⟨[], ()⟩ =
        (result, ⟨[.asked .a ⟨.execute (.str "osmo1kernel")
          (sending "ibc://osmo-b/osmo1x" call [⟨"5", .str "uosmo"⟩, ⟨"7", .str "uion"⟩]
            (some ⟨some "osmo1r"⟩))
          [⟨"5", .str "uosmo"⟩, ⟨"7", .str "uion"⟩], ended⟩], t⟩) ∧
      (∀ hash, result = .ok hash ↔ ended = .ok hash ∧ hash ≠ []) ∧
      (∀ failure, ended = .error failure → result = .error failure) := by
  have hshort : Json.Short 1 := by decide
  have hreadable : countCall.Readable Json.maxDepth := ⟨by decide, hshort, trivial⟩
  have hplain : countCall.Plain := ⟨by decide, by decide, trivial, trivial⟩
  have hcoins : List.Forall₂ GivenCoin.Gives
      [.coin ⟨"5", .str "uosmo"⟩, .value (.obj [("denom", .str "uion"), ("amount", .int 7)])]
      [⟨"5", .str "uosmo"⟩, ⟨"7", .str "uion"⟩] :=
    .cons (.coin _) (.cons (.value _ (.int 7) (.str "uion") rfl rfl rfl) .nil)
  exact (send_asks_once .a withKernel rfl _ _ hreadable hplain _ _).1 _ hcoins

end Scenario

end CrossChain
