import CrossChain.Hermes.Relayer
import CrossChain.Proofs.Hermes.Events
import CrossChain.Proofs.Log
import Mathlib.Algebra.GroupWithZero.Nat

/-!
# Exchanges over the channels of a link

What a sweep of hermes does, read off the runs of the command that it makes: a delivery either way
over each channel, with acknowledgements carried back where any were written (`Delivery`,
`Exchange`).  A sweep that succeeds makes one exchange for every channel, in order, and tells the
sum of them (`relayAll_noted`).
-/

namespace CrossChain

/-- What happens in the course of a relay: a sweep starts, or hermes was run. -/
inductive RelayEntry
  | sweep
  | ran (line : List Text) (ended : Except Failure ProcessResult)

namespace Hermes

/-! ## Commands -/

/-- Runs of hermes that are noted. -/
def notedRun {σ : Type} (run : List Text → Act σ ProcessResult) (line : List Text) :
    Act (Logged RelayEntry σ) ProcessResult :=
  Logged.noting (.ran line) (run line)

/-- A run of hermes that went well. -/
structure Ran [Json.Limits] (binary : Text) (arguments : List Json) where
  line : List Text
  isLine : commandLine binary arguments = .ok line
  process : ProcessResult
  result : Json
  isResult : process.result = .ok result

/-- The entry of a run. -/
def Ran.entry [Json.Limits] {binary : Text} {arguments : List Json} (r : Ran binary arguments) :
    RelayEntry :=
  .ran r.line (.ok r.process)

section Runs

variable {σ : Type} {binary : Text} {run : List Text → Act σ ProcessResult}
  {s t : Logged RelayEntry σ}

theorem notedRun_ok {line : List Text} {process : ProcessResult}
    (h : notedRun run line s = .ok process t) : t.log = s.log ++ [.ran line (.ok process)] := by
  cases hx : run line s.inner with
  | ok p u =>
    rw [notedRun, Logged.noting_run_ok hx] at h
    cases h
    rfl
  | error e u =>
    rw [notedRun, Logged.noting_run_error hx] at h
    cases h

theorem command_ok [Json.Limits] {arguments : List Json} {result : Json}
    (h : command binary (notedRun run) arguments s = .ok result t) :
    ∃ r : Ran binary arguments, r.result = result ∧ t.log = s.log ++ [r.entry] := by
  obtain ⟨line, u, hline, hrest⟩ := Act.bind_eq_ok h
  obtain ⟨isLine, rfl⟩ := Act.ofExcept_eq_ok hline
  obtain ⟨process, v, hrun, hresult⟩ := Act.bind_eq_ok hrest
  obtain ⟨isResult, rfl⟩ := Act.ofExcept_eq_ok hresult
  exact ⟨⟨line, isLine, process, result, isResult⟩, rfl, notedRun_ok hrun⟩

end Runs

/-! ## Deliveries -/

/-- A delivery from one end of a channel to the other: the run that made it, the events that it
reported, an acknowledgement for every one that was written, and, if there are any, the run that
carried them back. -/
structure Delivery [Json.Limits] (binary : Text) (src dest : ChainDefinition)
    (srcEnd destEnd : ChannelEnd) where
  delivered : Ran binary (receiveCommand src dest srcEnd)
  written : List (Table Json)
  areWritten : OutermostEvents "WriteAcknowledgement" delivered.result written
  received : List (Table Json)
  areReceived : OutermostEvents "ReceivePacket" delivered.result received
  acks : List Ack
  areAcks : written.map (ackOf srcEnd destEnd) = acks.map .ok
  returned : Option (Ran binary (acknowledgeCommand src dest destEnd))
  isReturned : returned.isSome ↔ acks ≠ []

namespace Delivery

variable [Json.Limits] {binary : Text} {src dest : ChainDefinition} {srcEnd destEnd : ChannelEnd}
  (d : Delivery binary src dest srcEnd destEnd)

/-- The runs of a delivery. -/
def entries : List RelayEntry := d.delivered.entry :: d.returned.toList.map Ran.entry

/-- The packets that were delivered: those reported, or as many as were acknowledged. -/
def count : Nat := if d.received = [] then d.acks.length else d.received.length

end Delivery

/-- A delivery from chain A over a channel and one from chain B. -/
structure Exchange [Json.Limits] (binary : Text) (a b : ChainDefinition) where
  pair : ChannelPair
  fromA : Delivery binary a b pair.src pair.dest
  fromB : Delivery binary b a pair.dest pair.src

namespace Exchange

variable [Json.Limits] {binary : Text} {a b : ChainDefinition}

/-- The runs of an exchange. -/
def entries (x : Exchange binary a b) : List RelayEntry := x.fromA.entries ++ x.fromB.entries

/-- What an exchange moved. -/
def info (x : Exchange binary a b) : RelayInfo :=
  ⟨x.fromA.count, x.fromB.count, x.fromB.acks, x.fromA.acks⟩

/-- What exchanges moved together. -/
def total (xs : List (Exchange binary a b)) : RelayInfo where
  packetsFromA := ((xs.map fun x => x.fromA.count).sum : Nat)
  packetsFromB := ((xs.map fun x => x.fromB.count).sum : Nat)
  acksFromA := xs.flatMap fun x => x.fromB.acks
  acksFromB := xs.flatMap fun x => x.fromA.acks

theorem total_concat (xs : List (Exchange binary a b)) (x : Exchange binary a b) :
    total (xs ++ [x]) = (total xs).merge x.info := by
  simp [total, RelayInfo.merge, info]

end Exchange

/-! ## From acts to exchanges -/

theorem mapM_eq_ok {α β : Type} {f : α → Except Failure β} {l : List α} {bs : List β}
    (h : l.mapM f = .ok bs) : l.map f = bs.map .ok := by
  induction l generalizing bs with
  | nil =>
    cases h
    rfl
  | cons a l ih =>
    rw [List.mapM_cons] at h
    cases ha : f a with
    | error e =>
      rw [ha] at h
      cases h
    | ok b =>
      cases hl : l.mapM f with
      | error e =>
        rw [ha, hl] at h
        cases h
      | ok bs' =>
        rw [ha, hl] at h
        cases h
        rw [List.map_cons, List.map_cons, ha, ih hl]

section Exchanges

variable [Json.Limits] {σ : Type} {binary : Text} {run : List Text → Act σ ProcessResult}
  {s t : Logged RelayEntry σ}

omit [Json.Limits] in
theorem receivedCount_eq (result : Json) (acks : List Ack) :
    receivedCount result acks = if findEvents "ReceivePacket" result = [] then acks.length
      else (findEvents "ReceivePacket" result).length := by
  unfold receivedCount
  cases findEvents "ReceivePacket" result <;> rfl

theorem relayDirection_noted {src dest : ChainDefinition} {srcEnd destEnd : ChannelEnd} {n : Nat}
    {acks : List Ack}
    (h : relayDirection binary (notedRun run) src dest srcEnd destEnd s = .ok (n, acks) t) :
    ∃ d : Delivery binary src dest srcEnd destEnd,
      d.count = n ∧ d.acks = acks ∧ t.log = s.log ++ d.entries := by
  obtain ⟨result, u, hdelivered, hrest⟩ := Act.bind_eq_ok h
  obtain ⟨delivered, rfl, hlog⟩ := command_ok hdelivered
  obtain ⟨acks', v, hacks, hreturn⟩ := Act.bind_eq_ok hrest
  obtain ⟨hacks', rfl⟩ := Act.ofExcept_eq_ok hacks
  have areAcks := mapM_eq_ok hacks'
  have areWritten := findEvents_outermost "WriteAcknowledgement" delivered.result
  have areReceived := findEvents_outermost "ReceivePacket" delivered.result
  cases acks' with
  | nil =>
    cases hreturn
    refine ⟨⟨delivered, _, areWritten, _, areReceived, [], areAcks, none, by simp⟩, ?_, rfl, hlog⟩
    rw [receivedCount_eq]
    rfl
  | cons ack rest =>
    obtain ⟨_, w, hreturned, hend⟩ := Act.bind_eq_ok hreturn
    cases hend
    obtain ⟨returned, -, hlog'⟩ := command_ok hreturned
    refine ⟨⟨delivered, _, areWritten, _, areReceived, _, areAcks, some returned, by simp⟩, ?_, rfl,
      ?_⟩
    · rw [receivedCount_eq]
      rfl
    · rw [hlog', hlog, List.append_assoc]
      rfl

theorem relayChannel_noted {a b : ChainDefinition} {pair : ChannelPair} {info : RelayInfo}
    (h : relayChannel binary (notedRun run) a b pair s = .ok info t) :
    ∃ x : Exchange binary a b, x.pair = pair ∧ x.info = info ∧ t.log = s.log ++ x.entries := by
  obtain ⟨⟨n, acks⟩, u, hfromA, hrest⟩ := Act.bind_eq_ok h
  obtain ⟨⟨m, acks'⟩, v, hfromB, hend⟩ := Act.bind_eq_ok hrest
  cases hend
  obtain ⟨fromA, rfl, rfl, hlog⟩ := relayDirection_noted hfromA
  obtain ⟨fromB, rfl, rfl, hlog'⟩ := relayDirection_noted hfromB
  refine ⟨⟨pair, fromA, fromB⟩, rfl, rfl, ?_⟩
  rw [hlog', hlog, List.append_assoc]
  rfl

/-- Going on from exchanges that were made, a sweep makes those of the channels that are left. -/
theorem relayRest_noted {a b : ChainDefinition} {channels : List ChannelPair} {info : RelayInfo}
    (done : List (Exchange binary a b))
    (h : (channels.foldlM (fun info pair => do
        return info.merge (← relayChannel binary (notedRun run) a b pair)) (Exchange.total done) :
      Act (Logged RelayEntry σ) RelayInfo) s = .ok info t) :
    ∃ xs : List (Exchange binary a b), xs.map Exchange.pair = channels ∧
      info = Exchange.total (done ++ xs) ∧ t.log = s.log ++ xs.flatMap Exchange.entries := by
  induction channels generalizing done s with
  | nil =>
    cases h
    exact ⟨[], rfl, by rw [List.append_nil], (List.append_nil _).symm⟩
  | cons pair rest ih =>
    rw [List.foldlM_cons] at h
    obtain ⟨info', u, hpair, hrest⟩ := Act.bind_eq_ok h
    obtain ⟨moved, v, hchannel, hmerge⟩ := Act.bind_eq_ok hpair
    cases hmerge
    obtain ⟨x, rfl, rfl, hlog⟩ := relayChannel_noted hchannel
    rw [← Exchange.total_concat] at hrest
    obtain ⟨xs, rfl, rfl, hlog'⟩ := ih (done ++ [x]) hrest
    refine ⟨x :: xs, rfl, by rw [List.append_assoc]; rfl, ?_⟩
    rw [hlog', hlog, List.append_assoc, List.flatMap_cons]

/-- A sweep that succeeds makes an exchange over every channel of the link, in order, and tells what
they moved together. -/
theorem relayAll_noted {link : Link} {info : RelayInfo}
    (h : relayAll binary (notedRun run) link s = .ok info t) :
    ∃ xs : List (Exchange binary link.chainA link.chainB),
      xs.map Exchange.pair = link.channels ∧ info = Exchange.total xs ∧
      t.log = s.log ++ xs.flatMap Exchange.entries :=
  relayRest_noted [] h

end Exchanges

end Hermes

end CrossChain
