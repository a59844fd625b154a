import CrossChain.Proofs.Relay.Exchanges
import CrossChain.Proofs.Relay.Retries

/-!
# What a relay tells

A relay over hermes that ends well tells about its last sweep and nothing else, and whether that was
the only one (`relay_lastSweep`).
-/

namespace CrossChain

/-! ## Entries -/

namespace RelayEntry

/-- Whether an entry is the start of a sweep. -/
def isSweep : RelayEntry → Bool
  | sweep => true
  | ran .. => false

/-- How a run that delivers packets ended, if it ended as a process. -/
def delivery? : RelayEntry → Option ProcessResult
  | ran (_ :: _ :: _ :: word :: _) (.ok process) =>
    if word = text "packet-recv" then some process else none
  | _ => none

end RelayEntry

/-- A relayer that notes the start of every sweep. -/
def Relayer.notingSweeps {σ : Type} (r : Relayer (Logged RelayEntry σ)) :
    Relayer (Logged RelayEntry σ) where
  answer
    | .relayAll link => do
      Logged.record .sweep
      r.relayAll link
    | .createConnection a b => r.createConnection a b
    | .createChannel link side portA portB order version =>
      r.createChannel link side portA portB order version
    | .isReady => r.isReady

namespace Hermes

section Entries

variable [Json.Limits] {binary : Text}

omit [Json.Limits] in
theorem line_of_command {first second : Text} {arguments : List Json} {line : List Text}
    (h : commandLine binary (.str first :: .str second :: arguments) = .ok line) :
    ∃ words, line = binary :: "--json" :: first :: second :: words := by
  obtain ⟨words, hwords, hline⟩ := Act.except_bind_eq_ok h
  have hmap := mapM_eq_ok hwords
  match words, hmap with
  | a :: b :: rest, hmap =>
    simp only [List.map_cons, List.cons.injEq, Except.ok.injEq] at hmap
    obtain ⟨rfl, rfl, -⟩ := hmap
    exact ⟨rest, (Except.ok.inj hline).symm⟩

theorem delivery?_receive {src dest : ChainDefinition} {srcEnd : ChannelEnd}
    (r : Ran binary (receiveCommand src dest srcEnd)) : r.entry.delivery? = some r.process := by
  obtain ⟨words, hline⟩ := line_of_command r.isLine
  rw [Ran.entry, hline, RelayEntry.delivery?, if_pos rfl]

theorem delivery?_acknowledge {src dest : ChainDefinition} {destEnd : ChannelEnd}
    (r : Ran binary (acknowledgeCommand src dest destEnd)) : r.entry.delivery? = none := by
  obtain ⟨words, hline⟩ := line_of_command r.isLine
  rw [Ran.entry, hline, RelayEntry.delivery?, if_neg (by decide)]

theorem filterMap_delivery? {src dest : ChainDefinition} {srcEnd destEnd : ChannelEnd}
    (d : Delivery binary src dest srcEnd destEnd) :
    d.entries.filterMap RelayEntry.delivery? = [d.delivered.process] := by
  rw [Delivery.entries, List.filterMap_cons_some (delivery?_receive d.delivered)]
  cases d.returned with
  | none => rfl
  | some r =>
    rw [Option.toList, List.map_singleton, List.filterMap_cons_none (delivery?_acknowledge r)]
    rfl

theorem mem_entries {a b : ChainDefinition} {x : Exchange binary a b} {entry : RelayEntry}
    (h : entry ∈ x.entries) :
    ∃ line process result, entry = .ran line (.ok process) ∧ process.result = .ok result := by
  have hran : ∀ {arguments} (r : Ran binary arguments), entry = r.entry →
      ∃ line process result, entry = .ran line (.ok process) ∧ process.result = .ok result :=
    fun r he => ⟨r.line, r.process, r.result, he, r.isResult⟩
  rcases List.mem_append.1 h with h | h <;> rcases List.mem_cons.1 h with h | h
  · exact hran _ h
  · obtain ⟨r, -, he⟩ := List.mem_map.1 h
    exact hran r he.symm
  · exact hran _ h
  · obtain ⟨r, -, he⟩ := List.mem_map.1 h
    exact hran r he.symm

theorem countP_isSweep_eq_zero {a b : ChainDefinition} (xs : List (Exchange binary a b)) :
    (xs.flatMap Exchange.entries).countP RelayEntry.isSweep = 0 := by
  apply List.countP_eq_zero.2
  intro entry hentry
  obtain ⟨x, -, hx⟩ := List.mem_flatMap.1 hentry
  obtain ⟨line, process, result, rfl, -⟩ := mem_entries hx
  exact Bool.false_ne_true

end Entries

/-! ## Sweeps in the log -/

section Sweeps

variable [Json.Limits] {σ : Type} (binary : Text) (run : List Text → Act σ ProcessResult)

/-- An entry that is no start of a sweep. -/
def NoSweep (entry : RelayEntry) : Prop := entry.isSweep = false

theorem within_command (arguments : List Json) :
    Act.Within (Logged.Adds NoSweep) (command binary (notedRun run) arguments) := by
  refine (Act.within_ofExcept _).bind fun line => ?_
  refine Act.Within.bind ?_ fun process => Act.within_ofExcept _
  exact Logged.within_adds_noting fun _ => rfl

theorem within_relayDirection (src dest : ChainDefinition) (srcEnd destEnd : ChannelEnd) :
    Act.Within (Logged.Adds NoSweep)
      (relayDirection binary (notedRun run) src dest srcEnd destEnd) := by
  refine (within_command binary run _).bind fun result => ?_
  refine (Act.within_ofExcept _).bind fun acks => ?_
  cases acks with
  | nil => exact Act.within_pure _
  | cons ack rest => exact (within_command binary run _).bind fun _ => Act.within_pure _

theorem within_relayAll (link : Link) :
    Act.Within (Logged.Adds NoSweep) (relayAll binary (notedRun run) link) := by
  refine Act.within_foldlM (fun info pair => ?_) _ _
  refine Act.Within.bind ?_ fun moved => Act.within_pure _
  refine (within_relayDirection binary run _ _ _ _).bind fun fromA => ?_
  exact (within_relayDirection binary run _ _ _ _).bind fun fromB => Act.within_pure _

/-- A sweep whose start is noted. -/
def notedSweep (link : Link) : Act (Logged RelayEntry σ) RelayInfo :=
  (Relayer.hermes binary (notedRun run)).notingSweeps.relayAll link

variable {binary run} {link : Link} {s t : Logged RelayEntry σ}

theorem notedSweep_ok {info : RelayInfo} (h : notedSweep binary run link s = .ok info t) :
    ∃ xs : List (Exchange binary link.chainA link.chainB),
      xs.map Exchange.pair = link.channels ∧ info = Exchange.total xs ∧
      t.log = s.log ++ .sweep :: xs.flatMap Exchange.entries := by
  obtain ⟨_, u, hrecord, hsweep⟩ := Act.bind_eq_ok h
  cases hrecord
  obtain ⟨xs, hpairs, hinfo, hlog⟩ := relayAll_noted hsweep
  exact ⟨xs, hpairs, hinfo, by rw [hlog, List.append_assoc]; rfl⟩

omit [Json.Limits] in
theorem countP_of_noSweep {l : List RelayEntry} (h : ∀ x ∈ l, NoSweep x) :
    l.countP RelayEntry.isSweep = 0 :=
  List.countP_eq_zero.2 fun x hx => by rw [h x hx]; exact Bool.false_ne_true

/-- As many sweeps start as are tried again. -/
theorem log_of_retries {pause : Act σ Unit} {n : Nat}
    (h : Sweep.Retries (Logged.lift pause) (notedSweep binary run link) n s t) :
    ∃ earlier, t.log = s.log ++ earlier ∧ earlier.countP RelayEntry.isSweep = n := by
  induction h with
  | none s => exact ⟨[], (List.append_nil _).symm, rfl⟩
  | @again n s u v w message fails pauses rest ih =>
    obtain ⟨earlier, hlog, hcount⟩ := ih
    rcases Act.bind_eq_error fails with hrecord | ⟨_, s', hrecord, hsweep⟩
    · cases hrecord
    · cases hrecord
      obtain ⟨l, hl, hnone⟩ := (within_relayAll binary run link).error hsweep
      obtain ⟨l', hl', hnone'⟩ := (Logged.within_adds_lift (P := NoSweep) pause).ok pauses
      refine ⟨.sweep :: l ++ l' ++ earlier, ?_, ?_⟩
      · rw [hlog, hl', hl]
        simp only [List.append_assoc, List.cons_append, List.nil_append]
      · rw [List.countP_append, List.countP_append, hcount, countP_of_noSweep hnone',
          List.countP_cons, countP_of_noSweep hnone]
        simp only [RelayEntry.isSweep, if_true]
        omega

end Sweeps

/-! ## The law -/

/-- A relay that ends well tells about its last sweep: that made one exchange over every channel in
order, and the answer is what they moved together.  It says that no sweep failed before just when
there was only one; then all runs of hermes went well, and the exchanges have every delivery that
was made. -/
theorem relay_lastSweep [Json.Limits] {σ : Type} (binary : Text)
    (run : List Text → Act σ ProcessResult) (sleep : Binary64 → Act σ Unit) (link : Link)
    (budget : Int) (delay : Binary64) {s t : Logged RelayEntry σ} {first : Bool} {info : RelayInfo}
    (h : link.relay (Relayer.hermes binary (notedRun run)).notingSweeps
      (fun d => Logged.lift (sleep d)) budget delay s = .ok (first, info) t) :
    ∃ (earlier last : List RelayEntry) (xs : List (Exchange binary link.chainA link.chainB)),
      t.log = s.log ++ earlier ++ .sweep :: last ∧
      last = xs.flatMap Exchange.entries ∧
      xs.map Exchange.pair = link.channels ∧
      info.acksFromA = xs.flatMap (fun x => x.fromB.acks) ∧
      info.acksFromB = xs.flatMap (fun x => x.fromA.acks) ∧
      info.packetsFromA = ((xs.map fun x => x.fromA.count).sum : Nat) ∧
      info.packetsFromB = ((xs.map fun x => x.fromB.count).sum : Nat) ∧
      (first = true ↔ (earlier ++ .sweep :: last).countP RelayEntry.isSweep = 1) ∧
      (first = true → earlier = [] ∧
        (∀ line ended, .ran line ended ∈ earlier ++ .sweep :: last →
          ∃ process result, ended = .ok process ∧ process.result = .ok result) ∧
        (earlier ++ .sweep :: last).filterMap RelayEntry.delivery? =
          xs.flatMap fun x => [x.fromA.delivered.process, x.fromB.delivered.process]) := by
  obtain ⟨n, u, hretries, hsweep, hfirst⟩ := Sweep.within_ok budget.toNat h
  obtain ⟨earlier, hearlier, hcount⟩ := log_of_retries hretries
  obtain ⟨xs, hpairs, rfl, hlast⟩ := notedSweep_ok hsweep
  have hfirst' : first = true ↔ n = 0 := by rw [hfirst, Bool.true_and, beq_iff_eq]
  refine ⟨earlier, _, xs, by rw [hlast, hearlier], rfl, hpairs, rfl, rfl, rfl, rfl, ?_, ?_⟩
  · rw [hfirst', List.countP_append, List.countP_cons, hcount, countP_isSweep_eq_zero]
    simp only [RelayEntry.isSweep, if_true]
    omega
  · intro htrue
    obtain rfl := hfirst'.1 htrue
    cases hretries
    have hnone : earlier = [] := by
      simpa using hearlier
    subst hnone
    refine ⟨rfl, fun line ended hmem => ?_, ?_⟩
    · obtain ⟨x, -, hx⟩ := List.mem_flatMap.1 ((List.mem_cons.1 hmem).resolve_left nofun)
      obtain ⟨line', process, result, he, hresult⟩ := mem_entries hx
      cases he
      exact ⟨process, result, rfl, hresult⟩
    · rw [List.nil_append, List.filterMap_cons_none rfl, List.filterMap_flatMap]
      apply congrArg (xs.flatMap ·)
      funext x
      rw [Exchange.entries, List.filterMap_append, filterMap_delivery?, filterMap_delivery?]
      rfl

/-! ### A relay over two channels -/

/-- Runs of hermes that end as listed. -/
def scripted (_ : List Text) : Act (List ProcessResult) ProcessResult
  | [] => .error (.file (.reported "no process")) []
  | process :: rest => .ok process rest

/-- A link with two channels. -/
def twoChannels : Link where
  chainA := Settings.localChain (fun _ => none) "localhost" "a" "chain-a" "A" "1" "2"
  chainB := Settings.localChain (fun _ => none) "localhost" "b" "chain-b" "B" "3" "4"
  connectionA := .null
  connectionB := .null
  channels :=
    [⟨⟨"transfer", .str "channel-0"⟩, ⟨"transfer", .str "channel-1"⟩⟩,
      ⟨⟨"wasm", .str "channel-2"⟩, ⟨"wasm", .str "channel-3"⟩⟩]

/-- Two sweeps: in the first an acknowledgement is carried back over the first channel, but not over
the second; the second sweep finds one packet there. -/
def twoSweeps : List ProcessResult :=
  let nothing : ProcessResult := { stdout := "\x7b\"result\":[]\x7d" }
  let written : ProcessResult :=
    { stdout := "\x7b\"result\":[\x7b\"WriteAcknowledgement\":\x7b\"ack\":[1]\x7d\x7d]\x7d" }
  [written, nothing, nothing, written, { code := 1 }] ++
    [nothing, nothing, written, nothing, nothing]

/-- The relay over the two channels whose hermes ends as listed. -/
def twoSweepRelay : EStateM.Result Failure (Logged RelayEntry (List ProcessResult))
    (Bool × RelayInfo) :=
  twoChannels.relay (Relayer.hermes "hermes" (notedRun scripted)).notingSweeps
    (fun _ => Logged.lift (pure ())) 6 .nan ⟨[], twoSweeps⟩

/-- Only the acknowledgement of the second sweep is told, and not the one that was carried back
before. -/
theorem relay_lastSweep_twoSweeps :
    ∃ info t, twoSweepRelay = .ok (false, info) t ∧ info.acksFromB.length = 1 ∧
      ∃ (earlier last : List RelayEntry)
        (xs : List (Exchange "hermes" twoChannels.chainA twoChannels.chainB)),
        t.log = earlier ++ .sweep :: last ∧ earlier ≠ [] ∧
        last = xs.flatMap Exchange.entries ∧ xs.map Exchange.pair = twoChannels.channels ∧
        info.acksFromB = xs.flatMap fun x => x.fromA.acks := by
  have hcheck : (match twoSweepRelay with
      | .ok (first, info) _ => !first && info.acksFromB.length == 1
      | .error _ _ => false) = true := by decide +kernel
  cases hrun : twoSweepRelay with
  | error e t =>
    rw [hrun] at hcheck
    cases hcheck
  | ok p t =>
    obtain ⟨first, info⟩ := p
    rw [hrun] at hcheck
    obtain ⟨hfirst, hlength⟩ := Bool.and_eq_true_iff.1 hcheck
    obtain rfl : first = false := by rwa [Bool.not_eq_true'] at hfirst
    obtain ⟨earlier, last, xs, hlog, hlast, hpairs, -, hacks, -, -, honly, -⟩ :=
      relay_lastSweep "hermes" scripted (fun _ => pure ()) twoChannels 6 .nan hrun
    refine ⟨info, t, rfl, beq_iff_eq.1 hlength, earlier, last, xs, hlog, ?_, hlast, hpairs, hacks⟩
    rintro rfl
    apply Bool.false_ne_true
    apply honly.2
    rw [hlast, List.nil_append, List.countP_cons, countP_isSweep_eq_zero]
    rfl

end Hermes

end CrossChain
