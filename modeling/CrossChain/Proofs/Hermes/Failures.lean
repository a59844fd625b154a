import CrossChain.Hermes.Relayer
import CrossChain.Proofs.Failing
import CrossChain.Proofs.Json.Recognition
import CrossChain.Proofs.Text.Utf8
import Mathlib.Data.List.Permutation

/-!
# How hermes fails

Whatever a run of hermes prints, what it was asked for is to fail with a relay failure only.  It
does so exactly as long as every argument is a text and the line of the result exceeds no limit of
the JSON reader (`Speaks`), and, in a relay, every event that is read has an acknowledgement and a
packet that can be (`Answers`).  `failsOnly_relay_iff` says so of all that hermes is asked for.
-/

namespace CrossChain

/-- The failures of the relayer. -/
def Failure.IsRelay (e : Failure) : Prop := e.isRelay = true

/-! ## Results of runs -/

namespace ProcessResult

variable [Json.Limits]

/-- The line of the result exceeds a limit of the JSON reader. -/
def ExceedsLimit (p : ProcessResult) : Prop :=
  ∃ line, p.lastObjectLine? = some line ∧ Json.ExceedsLimit line

/-- Within the limits every line tells an object or nothing. -/
theorem finalObject?_cases (p : ProcessResult) :
    ¬ p.ExceedsLimit ∧ (∃ o, p.finalObject? = .ok o) ∨
      p.ExceedsLimit ∧ ∃ e, p.finalObject? = .error e ∧ (e.isRelay || e.isSystem) = false := by
  unfold finalObject?
  cases hline : p.lastObjectLine? with
  | none =>
    refine .inl ⟨?_, none, rfl⟩
    rintro ⟨line, hsome, -⟩
    rw [hline] at hsome
    cases hsome
  | some line =>
    have hwithin : ¬ Json.ExceedsLimit line → ¬ p.ExceedsLimit := by
      rintro h ⟨line', hsome, hexceeds⟩
      rw [hline] at hsome
      cases hsome
      exact h hexceeds
    have hread := Json.reads line
    simp only [Json.parse]
    generalize Json.read line = r at hread
    cases hread with
    | @value v within _ => cases v <;> exact .inl ⟨hwithin within, _, rfl⟩
    | fault within _ => exact .inl ⟨hwithin within, _, rfl⟩
    | @limit e exceeds limit =>
      cases e with
      | fault f => exact limit.elim
      | tooLong digits => exact .inr ⟨⟨line, hline, exceeds⟩, _, rfl, rfl⟩
      | tooDeep container => exact .inr ⟨⟨line, hline, exceeds⟩, _, rfl, rfl⟩

variable {P : Failure → Prop} (hrelay : ∀ m, P (.relay (.ofMessage m)))

include hrelay

/-- Once the last object is found, nothing but a failure of the relayer is left. -/
theorem failsOnly_result_iff (p : ProcessResult) :
    FailsOnly P p.result ↔ FailsOnly P p.finalObject? := by
  rw [result, failsOnly_bind]
  refine and_iff_left fun o _ => ?_
  cases o with
  | none => exact failsOnly_error.2 (hrelay _)
  | some members =>
    cases hfailed : p.code != 0 || reportsError members with
    | true =>
      simp only [hfailed, if_true]
      exact failsOnly_error.2 (hrelay _)
    | false =>
      simp only [hfailed, Bool.false_eq_true, if_false]
      exact failsOnly_ok _

theorem failsOnly_result (honly : ∀ e, P e → (e.isRelay || e.isSystem) = true)
    (p : ProcessResult) : FailsOnly P p.result ↔ ¬ p.ExceedsLimit := by
  rw [p.failsOnly_result_iff hrelay]
  rcases p.finalObject?_cases with ⟨within, o, ho⟩ | ⟨exceeds, e, he, hother⟩
  · rw [ho]
    exact iff_of_true (failsOnly_ok o) within
  · rw [he, failsOnly_error]
    refine iff_of_false (fun h => ?_) (not_not_intro exceeds)
    have hkind := honly e h
    rw [hother] at hkind
    cases hkind

end ProcessResult

namespace Hermes

/-! ## Commands -/

/-- An argument as a word of a command line. -/
def wordOf : Json → Except Failure Text
  | .str s => .ok s
  | _ => .error .wrongKind

theorem words_inj {words words' : List Text}
    (h : words.map Json.str = words'.map Json.str) : words = words' :=
  List.map_injective_iff.2 (fun _ _ h => Json.str.inj h) h

theorem words_cases (arguments : List Json) :
    (∃ words : List Text, arguments = words.map .str ∧ arguments.mapM wordOf = .ok words) ∨
      (∀ words : List Text, arguments ≠ words.map .str) ∧
        arguments.mapM wordOf = .error .wrongKind := by
  induction arguments with
  | nil => exact .inl ⟨[], rfl, rfl⟩
  | cons argument rest ih =>
    rw [List.mapM_cons]
    cases argument with
    | str s =>
      rcases ih with ⟨words, hwords, hrest⟩ | ⟨hnone, hrest⟩
      · exact .inl ⟨s :: words, by rw [hwords]; rfl, by rw [hrest]; rfl⟩
      · refine .inr ⟨fun words h => ?_, by rw [hrest]; rfl⟩
        cases words with
        | nil => cases h
        | cons word words => exact hnone words (List.cons.inj h).2
    | _ =>
      refine .inr ⟨fun words h => ?_, rfl⟩
      cases words <;> cases h

/-- A command line is made of texts. -/
theorem commandLine_eq (binary : Text) (arguments : List Json) :
    commandLine binary arguments =
      (arguments.mapM wordOf).map fun words => binary :: "--json" :: words := by
  have hwords : commandLine binary arguments =
      arguments.mapM wordOf >>= fun words => .ok (binary :: "--json" :: words) := by
    unfold commandLine
    congr 2
  rw [hwords]
  cases arguments.mapM wordOf <;> rfl

section Commands

variable [Json.Limits] {σ : Type} (f : List Text → σ → ProcessResult × σ) (binary : Text)

/-- Runs of hermes that all start: each ends with an output, and may change the state. -/
def started : List Text → Act σ ProcessResult := fun line s => .ok (f line s).1 (f line s).2

/-- Hermes can be asked with these arguments, which are texts, and the line of its result exceeds no
limit of the JSON reader. -/
def Speaks (arguments : List Json) (s : σ) : Prop :=
  ∃ words : List Text, arguments = words.map .str ∧
    ¬ (f (binary :: "--json" :: words) s).1.ExceedsLimit

variable {f binary} {P : Failure → Prop} {arguments : List Json} {s : σ}

/-- A command of texts gives the result of the run. -/
theorem command_of_run {run : List Text → Act σ ProcessResult} {words : List Text}
    {p : ProcessResult} {t : σ} (hrun : run (binary :: "--json" :: words) s = .ok p t) :
    command binary run (words.map .str) s = Act.ofExcept p.result t := by
  have hline : commandLine binary (words.map .str) = .ok (binary :: "--json" :: words) := by
    rw [commandLine_eq]
    rcases words_cases (words.map .str) with ⟨words', hsame, hwords⟩ | ⟨hnone, -⟩
    · obtain rfl := words_inj hsame
      rw [hwords]
      rfl
    · exact absurd rfl (hnone words)
  rw [command, hline, Act.ofExcept_ok, pure_bind, Act.bind_run_ok hrun]

theorem command_run (words : List Text) :
    command binary (started f) (words.map .str) s =
      Act.ofExcept (f (binary :: "--json" :: words) s).1.result
        (f (binary :: "--json" :: words) s).2 :=
  command_of_run rfl

/-- Hermes is asked without another failure exactly where it speaks. -/
theorem failsOnly_command (hrelay : ∀ m, P (.relay (.ofMessage m)))
    (honly : ∀ e, P e → (e.isRelay || e.isSystem) = true) :
    Act.FailsOnly P (command binary (started f) arguments) s ↔ Speaks f binary arguments s := by
  rcases words_cases arguments with ⟨words, rfl, -⟩ | ⟨hnone, hwords⟩
  · have hresult :=
      ProcessResult.failsOnly_result hrelay honly (f (binary :: "--json" :: words) s).1
    have hiff : Act.FailsOnly P (command binary (started f) (words.map .str)) s ↔
        ¬ (f (binary :: "--json" :: words) s).1.ExceedsLimit := by
      rw [← hresult,
        ← Act.failsOnly_ofExcept (s := (f (binary :: "--json" :: words) s).2)]
      simp only [Act.FailsOnly, command_run]
    rw [hiff]
    constructor
    · exact fun h => ⟨words, rfl, h⟩
    · rintro ⟨words', hsame, h⟩
      obtain rfl := words_inj hsame
      exact h
  · have hfails : command binary (started f) arguments s = .error .wrongKind s := by
      rw [command, commandLine_eq, hwords]
      rfl
    constructor
    · intro h
      have hkind := honly _ (h _ _ hfails)
      cases hkind
    · rintro ⟨words, hsame, -⟩
      exact absurd hsame (hnone words)

end Commands

/-! ## Connections and channels -/

theorem isRelay_ofMessage (m : Text) : Failure.IsRelay (.relay (.ofMessage m)) := rfl

theorem isRelay_or {e : Failure} (h : e.IsRelay) : (e.isRelay || e.isSystem) = true := by
  rw [Failure.IsRelay] at h
  rw [h, Bool.true_or]

/-- A member that is missing, or is looked for in something else, is a matter of shape. -/
theorem isShape_member {key : Text} {v : Json} {e : Failure} (h : Json.member key v = .error e) :
    e.isShape = true := by
  cases v with
  | obj members =>
    rw [Json.member] at h
    cases hget : Table.get? key members with
    | some w => rw [hget] at h; cases h
    | none =>
      rw [hget] at h
      cases h
      rfl
  | _ =>
    cases h
    rfl

theorem failsOnly_member (key : Text) (v : Json) :
    FailsOnly (fun e => e.isShape = true) (Json.member key v) := fun _ h => isShape_member h

theorem failsOnly_ofSide (side key : Text) (result : Json) :
    FailsOnly (fun e => e.isShape = true) (ofSide side key result) :=
  failsOnly_bind.2 ⟨failsOnly_member side result, fun v _ => failsOnly_member key v⟩

/-- Whatever the result is, its sides are read or a relay failure tells what it was. -/
theorem failsOnly_ofSides {P : Failure → Prop} (hrelay : ∀ m, P (.relay (.ofMessage m)))
    (key about : Text) (result : Json) : FailsOnly P (ofSides key about result) := by
  have hsides : FailsOnly (fun e => e.isShape = true)
      (do return (← ofSide "a_side" key result, ← ofSide "b_side" key result) :
        Except Failure (Json × Json)) :=
    failsOnly_bind.2 ⟨failsOnly_ofSide _ key result, fun a _ =>
      failsOnly_bind.2 ⟨failsOnly_ofSide _ key result, fun b _ => failsOnly_ok (a, b)⟩⟩
  rw [ofSides]
  generalize (do return (← ofSide "a_side" key result, ← ofSide "b_side" key result) :
    Except Failure (Json × Json)) = r at hsides ⊢
  cases r with
  | ok pair => exact failsOnly_ok pair
  | error e =>
    have hshape := failsOnly_error.1 hsides
    simp only [hshape, if_true]
    exact failsOnly_error.2 (hrelay _)

section Asked

variable [Json.Limits] {σ : Type} {f : List Text → σ → ProcessResult × σ} {binary : Text} {s : σ}

theorem failsOnly_createConnection (a b : ChainDefinition) :
    Act.FailsOnly Failure.IsRelay (createConnection binary (started f) a b) s ↔
      Speaks f binary (connectionCommand a b) s := by
  rw [createConnection, Act.failsOnly_bind_of_forall, failsOnly_command isRelay_ofMessage]
  · exact fun _ => isRelay_or
  · exact fun result t => Act.failsOnly_ofExcept.2 (failsOnly_ofSides isRelay_ofMessage _ _ result)

theorem failsOnly_createChannel (link : Link) (side : Side) (portA portB : Text) (order : Order)
    (version : Text) :
    Act.FailsOnly Failure.IsRelay
        (createChannel binary (started f) link side portA portB order version) s ↔
      Speaks f binary (channelCommand link side portA portB order version) s := by
  rw [createChannel, Act.failsOnly_bind_of_forall, failsOnly_command isRelay_ofMessage]
  · exact fun _ => isRelay_or
  · intro result t
    rw [Act.failsOnly_bind_of_forall fun ends u => Act.failsOnly_pure _]
    exact Act.failsOnly_ofExcept.2 (failsOnly_ofSides isRelay_ofMessage _ _ result)

/-- Hermes tells whether it is healthy exactly where it speaks. -/
theorem isReady_ok_iff : (∃ ready t, isReady binary (started f) s = .ok ready t) ↔
    Speaks f binary [.str "health-check"] s := by
  rw [← failsOnly_command (fun _ => rfl) fun _ h => h]
  cases hcommand : command binary (started f) [.str "health-check"] s with
  | ok result t =>
    have hready : isReady binary (started f) s = .ok true t :=
      Act.bind_run_ok (Act.attempt_run_ok hcommand)
    refine ⟨fun _ e u h => ?_, fun _ => ⟨true, t, hready⟩⟩
    rw [hcommand] at h
    cases h
  | error e t =>
    have hready : isReady binary (started f) s =
        (if e.isRelay || e.isSystem then return false else throw e : Act σ Bool) t :=
      Act.bind_run_ok (Act.attempt_run_error hcommand)
    rw [hready]
    cases hkind : e.isRelay || e.isSystem with
    | true =>
      refine ⟨fun _ e' u h => ?_, fun _ => ⟨false, t, rfl⟩⟩
      rw [hcommand] at h
      cases h
      exact hkind
    | false =>
      constructor
      · rintro ⟨ready, u, h⟩
        cases h
      · intro h
        have hfails : (e.isRelay || e.isSystem) = true := h e t hcommand
        rw [hkind] at hfails
        cases hfails

end Asked

/-! ## Events -/

/-- What an event has for an acknowledgement; an empty list if nothing. -/
def ackIn (event : Table Json) : Json := (Table.get? "ack" event).getD (.arr [])

/-- What an event has for a packet; an empty object if nothing. -/
def packetIn (event : Table Json) : Json := (Table.get? "packet" event).getD (.obj [])

/-- A list of bytes, or a text without surrogates. -/
def ReadableAck : Json → Prop
  | .arr items => ∀ item ∈ items, ∃ n, item.asInt? = some n ∧ 0 ≤ n ∧ n < 256
  | .str s => ∀ c ∈ s, c.isSurrogate = false
  | _ => False

/-- Neither a list nor a text. -/
def UnknownAck : Json → Prop
  | .arr _ => False
  | .str _ => False
  | _ => True

/-- An object whose sequence, if it has any, stands for an integer. -/
def ReadablePacket : Json → Prop
  | .obj packet => ∃ n, ((Table.get? "sequence" packet).getD (.int 0)).toInt = .ok n
  | _ => False

/-- An event whose acknowledgement and packet can be read. -/
def Readable (event : Table Json) : Prop :=
  ReadableAck (ackIn event) ∧ ReadablePacket (packetIn event)

/-- Of events that are read one after the other, the first that is not readable has an
acknowledgement of which it can be said that it is unknown. -/
def Orderly (events : List (Table Json)) : Prop :=
  ∀ before event after, events = before ++ event :: after → (∀ e ∈ before, Readable e) →
    UnknownAck (ackIn event) ∨ Readable event

theorem failsOnly_byteOf (item : Json) : FailsOnly (fun e => ¬ e.IsRelay) (byteOf item) := by
  intro e h
  unfold byteOf at h
  cases hn : item.asInt? with
  | none =>
    rw [hn] at h
    cases h
    exact nofun
  | some n =>
    simp only [hn] at h
    split at h
    · cases h
    · cases h
      exact nofun

theorem byteOf_ok_iff (item : Json) :
    (∃ b, byteOf item = .ok b) ↔ ∃ n, item.asInt? = some n ∧ 0 ≤ n ∧ n < 256 := by
  unfold byteOf
  cases item.asInt? with
  | none =>
    constructor
    · rintro ⟨b, h⟩
      cases h
    · rintro ⟨n, h, -⟩
      cases h
  | some n =>
    by_cases hn : 0 ≤ n ∧ n < 256
    · simp only [if_pos hn]
      exact ⟨fun _ => ⟨n, rfl, hn⟩, fun _ => ⟨_, rfl⟩⟩
    · simp only [if_neg hn]
      constructor
      · rintro ⟨b, h⟩
        cases h
      · rintro ⟨m, hm, hrange⟩
        cases hm
        exact absurd hrange hn

/-- A surrogate is no hexadecimal digit and no blank. -/
theorem hexBytes?_surrogates {s : Text} {bytes : List UInt8} (h : hexBytes? s = some bytes) :
    ∀ c ∈ s, c.isSurrogate = false := by
  have hblank : ∀ {c : CodePoint}, c.isAsciiBlank = true → c.isSurrogate = false := by
    intro c hc
    have hrange := CodePoint.isAsciiBlank_iff.1 hc
    exact Utf8.isSurrogate_of_ascii (by omega)
  have hdigit : ∀ {c : CodePoint} {n : Nat}, c.hexValue? = some n → c.isSurrogate = false := by
    intro c n hc
    have hranges := Json.ranges_of_hexValue? hc
    exact Utf8.isSurrogate_of_ascii (by omega)
  fun_induction hexBytes? s generalizing bytes with
  | case1 => exact List.forall_mem_nil _
  | case2 c rest hc ih => exact List.forall_mem_cons.2 ⟨hblank hc, ih h⟩
  | case3 | case5 => cases h
  | case4 c _ d rest high low hlow hhigh ih =>
    obtain ⟨bytes', hrest, -⟩ := Option.map_eq_some_iff.1 h
    exact List.forall_mem_cons.2 ⟨hdigit hhigh, List.forall_mem_cons.2 ⟨hdigit hlow, ih hrest⟩⟩

theorem failsOnly_toBytes (s : Text) : FailsOnly (fun e => ¬ e.IsRelay) s.toBytes := by
  intro e h
  unfold Text.toBytes at h
  cases hbytes : Utf8.encode s with
  | ok bytes =>
    rw [hbytes] at h
    cases h
  | error fault =>
    rw [hbytes] at h
    cases h
    exact nofun

theorem toBytes_ok_iff (s : Text) :
    (∃ bytes, s.toBytes = .ok bytes) ↔ ∀ c ∈ s, c.isSurrogate = false := by
  constructor
  · rintro ⟨bytes, h⟩
    unfold Text.toBytes at h
    cases hbytes : Utf8.encode s with
    | ok bytes' => exact (Utf8.encode_eq_ok.1 hbytes).1
    | error fault =>
      rw [hbytes] at h
      cases h
  · intro h
    exact ⟨_, by rw [Text.toBytes, Utf8.encode_eq_ok.2 ⟨h, rfl⟩]; rfl⟩

/-- A list or a text is read, or fails with something other than a relay failure. -/
theorem ackBytes_cases (ack : Json) :
    UnknownAck ack ∧ (∃ m, ackBytes ack = .error (.relay (.ofMessage m))) ∨
      ¬ UnknownAck ack ∧ FailsOnly (fun e => ¬ e.IsRelay) (ackBytes ack) ∧
        ((∃ bytes, ackBytes ack = .ok bytes) ↔ ReadableAck ack) := by
  cases ack with
  | arr items =>
    refine .inr ⟨id, ?_, ?_⟩
    · exact failsOnly_mapM.2 fun _ item _ _ _ => failsOnly_byteOf item
    · unfold ackBytes
      rw [exists_mapM_ok]
      exact forall₂_congr fun item _ => byteOf_ok_iff item
  | str s =>
    refine .inr ⟨id, ?_⟩
    cases hhex : hexBytes? s with
    | some bytes =>
      have hread : ackBytes (.str s) = .ok bytes := by rw [ackBytes, hhex]
      rw [hread]
      exact ⟨failsOnly_ok bytes, fun _ => hexBytes?_surrogates hhex, fun _ => ⟨bytes, rfl⟩⟩
    | none =>
      have hread : ackBytes (.str s) = s.toBytes := by rw [ackBytes, hhex]
      rw [hread]
      exact ⟨failsOnly_toBytes s, toBytes_ok_iff s⟩
  | _ => exact .inl ⟨trivial, _, rfl⟩

theorem failsOnly_toInt (v : Json) : FailsOnly (fun e => ¬ e.IsRelay) v.toInt := by
  intro e h
  cases v with
  | bool b => cases h
  | int n => cases h
  | float x =>
    cases x <;> cases h <;> exact nofun
  | str s =>
    unfold Json.toInt Text.toInt at h
    simp only at h
    cases hread : Numeral.readInt s with
    | ok n =>
      rw [hread] at h
      cases h
    | error fault =>
      rw [hread] at h
      cases fault <;> cases h <;> exact nofun
  | _ =>
    cases h
    exact nofun

section Read

variable (src dest : ChannelEnd) (event : Table Json)

/-- What is read of an event's packet. -/
def packetOf (bytes : List UInt8) : Json → Except Failure Ack
  | .obj packet => do
    return {
      body := .bytes bytes
      srcChannel := (Table.get? "source_channel" packet).getD src.channel
      destChannel := (Table.get? "destination_channel" packet).getD dest.channel
      sequence := ← ((Table.get? "sequence" packet).getD (.int 0)).toInt }
  | _ => .error .noParts

theorem ackOf_eq : ackOf src dest event =
    ackBytes (ackIn event) >>= fun bytes => packetOf src dest bytes (packetIn event) := by
  unfold ackOf
  congr 1

theorem failsOnly_packetOf (bytes : List UInt8) (packet : Json) :
    FailsOnly (fun e => ¬ e.IsRelay) (packetOf src dest bytes packet) := by
  cases packet with
  | obj members => exact failsOnly_bind.2 ⟨failsOnly_toInt _, fun n _ => failsOnly_ok _⟩
  | _ => exact failsOnly_error.2 nofun

theorem packetOf_ok_iff (bytes : List UInt8) (packet : Json) :
    (∃ ack, packetOf src dest bytes packet = .ok ack) ↔ ReadablePacket packet := by
  cases packet with
  | obj members =>
    constructor
    · rintro ⟨ack, h⟩
      obtain ⟨n, hn, -⟩ := Act.except_bind_eq_ok h
      exact ⟨n, hn⟩
    · rintro ⟨n, hn⟩
      exact ⟨_, by rw [packetOf, hn]; rfl⟩
  | _ =>
    refine ⟨?_, nofun⟩
    rintro ⟨ack, h⟩
    cases h

/-- An event is read exactly where it is readable. -/
theorem ackOf_ok_iff : (∃ ack, ackOf src dest event = .ok ack) ↔ Readable event := by
  rw [ackOf_eq]
  constructor
  · rintro ⟨ack, h⟩
    obtain ⟨bytes, hbytes, hpacket⟩ := Act.except_bind_eq_ok h
    refine ⟨?_, (packetOf_ok_iff src dest bytes _).1 ⟨ack, hpacket⟩⟩
    rcases ackBytes_cases (ackIn event) with ⟨-, m, hm⟩ | ⟨-, -, hread⟩
    · rw [hm] at hbytes
      cases hbytes
    · exact hread.1 ⟨bytes, hbytes⟩
  · rintro ⟨hack, hpacket⟩
    rcases ackBytes_cases (ackIn event) with ⟨hunknown, -⟩ | ⟨-, -, hread⟩
    · cases hkind : ackIn event with
      | arr | str => rw [hkind] at hunknown; exact hunknown.elim
      | _ => rw [hkind] at hack; exact hack.elim
    · obtain ⟨bytes, hbytes⟩ := hread.2 hack
      obtain ⟨ack, hack'⟩ := (packetOf_ok_iff src dest bytes _).2 hpacket
      exact ⟨ack, by rw [hbytes]; exact hack'⟩

/-- An event fails with another failure exactly where it is neither readable nor unknown. -/
theorem failsOnly_ackOf : FailsOnly Failure.IsRelay (ackOf src dest event) ↔
    UnknownAck (ackIn event) ∨ Readable event := by
  rcases ackBytes_cases (ackIn event) with ⟨hunknown, m, hm⟩ | ⟨hknown, hbytes, -⟩
  · rw [ackOf_eq, hm]
    exact ⟨fun _ => .inl hunknown, fun _ => failsOnly_error.2 rfl⟩
  · have hother : FailsOnly (fun e => ¬ e.IsRelay) (ackOf src dest event) := by
      rw [ackOf_eq]
      exact failsOnly_bind.2 ⟨hbytes, fun bytes _ => failsOnly_packetOf src dest bytes _⟩
    rw [failsOnly_iff_ok hother, ackOf_ok_iff]
    exact ⟨.inr, fun h => h.resolve_left hknown⟩

theorem failsOnly_acksOf (result : Json) :
    FailsOnly Failure.IsRelay (acksOf src dest result) ↔
      Orderly (findEvents "WriteAcknowledgement" result) := by
  unfold acksOf Orderly
  rw [failsOnly_mapM]
  simp only [failsOnly_ackOf, ackOf_ok_iff]

end Read

/-! ## Relays -/

section Relays

variable [Json.Limits] {σ : Type} (f : List Text → σ → ProcessResult × σ) (binary : Text)

/-- What a delivery needs of hermes so that nothing but a relay failure comes of it: that hermes
speaks when it is asked to deliver, that the events of the result are orderly, and, where each of
them is readable and there are any, that hermes speaks again when it is asked to carry the
acknowledgements back. -/
structure Answers (src dest : ChainDefinition) (srcEnd destEnd : ChannelEnd) (s : σ) : Prop where
  delivers : Speaks f binary (receiveCommand src dest srcEnd) s
  events : ∀ result t,
    command binary (started f) (receiveCommand src dest srcEnd) s = .ok result t →
    Orderly (findEvents "WriteAcknowledgement" result)
  returns : ∀ result t,
    command binary (started f) (receiveCommand src dest srcEnd) s = .ok result t →
    findEvents "WriteAcknowledgement" result ≠ [] →
    (∀ event ∈ findEvents "WriteAcknowledgement" result, Readable event) →
    Speaks f binary (acknowledgeCommand src dest destEnd) t

/-- What a relay over a channel needs: that hermes answers from chain A, and then from chain B. -/
structure AnswersBoth (a b : ChainDefinition) (pair : ChannelPair) (s : σ) : Prop where
  fromA : Answers f binary a b pair.src pair.dest s
  fromB : ∀ moved t, relayDirection binary (started f) a b pair.src pair.dest s = .ok moved t →
    Answers f binary b a pair.dest pair.src t

variable {f binary} {s : σ}

omit [Json.Limits] in
theorem acksOf_ok {src dest : ChannelEnd} {result : Json} {acks : List Ack}
    (h : acksOf src dest result = .ok acks) :
    (∀ event ∈ findEvents "WriteAcknowledgement" result, Readable event) ∧
      (acks.isEmpty = true ↔ findEvents "WriteAcknowledgement" result = []) := by
  unfold acksOf at h
  constructor
  · intro event hevent
    exact (ackOf_ok_iff src dest event).1 (exists_mapM_ok.1 ⟨acks, h⟩ event hevent)
  · generalize findEvents "WriteAcknowledgement" result = events at h
    cases events with
    | nil =>
      cases h
      exact ⟨fun _ => rfl, fun _ => rfl⟩
    | cons event events =>
      rw [List.mapM_cons] at h
      obtain ⟨ack, -, hrest⟩ := Act.except_bind_eq_ok h
      obtain ⟨acks', -, hend⟩ := Act.except_bind_eq_ok hrest
      cases hend
      exact ⟨nofun, nofun⟩

theorem failsOnly_relayDirection (src dest : ChainDefinition) (srcEnd destEnd : ChannelEnd) :
    Act.FailsOnly Failure.IsRelay (relayDirection binary (started f) src dest srcEnd destEnd) s ↔
      Answers f binary src dest srcEnd destEnd s := by
  have hspeaks : ∀ {arguments : List Json} {t : σ},
      Act.FailsOnly Failure.IsRelay (command binary (started f) arguments) t ↔
        Speaks f binary arguments t := failsOnly_command isRelay_ofMessage fun _ => isRelay_or
  rw [relayDirection, Act.failsOnly_bind, hspeaks]
  constructor
  · rintro ⟨hdelivers, h⟩
    refine ⟨hdelivers, fun result t hresult => ?_, fun result t hresult hsome hreadable => ?_⟩
    · have hacks := (Act.failsOnly_bind.1 (h result t hresult)).1
      exact (failsOnly_acksOf srcEnd destEnd result).1 (Act.failsOnly_ofExcept.1 hacks)
    · obtain ⟨acks, hacks⟩ := exists_mapM_ok.2 fun event hevent =>
        (ackOf_ok_iff srcEnd destEnd event).2 (hreadable event hevent)
      have hacks' : acksOf srcEnd destEnd result = .ok acks := hacks
      have hnotEmpty : acks.isEmpty = false := by
        rw [← Bool.not_eq_true, (acksOf_ok hacks').2]
        exact hsome
      have hrest := (Act.failsOnly_bind.1 (h result t hresult)).2 acks t (by rw [hacks']; rfl)
      simp only [hnotEmpty, Bool.not_false, if_true] at hrest
      rw [Act.failsOnly_bind_of_forall fun _ v => Act.failsOnly_pure _] at hrest
      exact hspeaks.1 hrest
  · rintro ⟨hdelivers, hevents, hreturns⟩
    refine ⟨hdelivers, fun result t hresult => Act.failsOnly_bind.2 ⟨?_, fun acks u hacks => ?_⟩⟩
    · exact Act.failsOnly_ofExcept.2 ((failsOnly_acksOf srcEnd destEnd result).2
        (hevents result t hresult))
    · obtain ⟨hacks', rfl⟩ := Act.ofExcept_eq_ok hacks
      obtain ⟨hreadable, hempty⟩ := acksOf_ok hacks'
      cases hnotEmpty : acks.isEmpty with
      | true =>
        simp only [Bool.not_true, Bool.false_eq_true, if_false]
        exact Act.failsOnly_pure _
      | false =>
        have hsome : findEvents "WriteAcknowledgement" result ≠ [] := by
          rw [ne_eq, ← hempty, hnotEmpty]
          exact Bool.false_ne_true
        simp only [Bool.not_false, if_true]
        rw [Act.failsOnly_bind_of_forall fun _ v => Act.failsOnly_pure _]
        exact hspeaks.2 (hreturns result _ hresult hsome hreadable)

theorem failsOnly_relayChannel (a b : ChainDefinition) (pair : ChannelPair) :
    Act.FailsOnly Failure.IsRelay (relayChannel binary (started f) a b pair) s ↔
      AnswersBoth f binary a b pair s := by
  rw [relayChannel, Act.failsOnly_bind, failsOnly_relayDirection]
  constructor
  · rintro ⟨hfromA, h⟩
    refine ⟨hfromA, fun moved t hmoved => ?_⟩
    rw [← failsOnly_relayDirection]
    exact (Act.failsOnly_bind_of_forall fun _ u => Act.failsOnly_pure _).1 (h moved t hmoved)
  · rintro ⟨hfromA, hfromB⟩
    refine ⟨hfromA, fun moved t hmoved => ?_⟩
    have hback := hfromB moved t hmoved
    rw [← failsOnly_relayDirection] at hback
    exact (Act.failsOnly_bind_of_forall fun _ u => Act.failsOnly_pure _).2 hback

/-- A relay over a link fails with another failure at the first channel over which hermes does not
answer, if those before it were relayed. -/
theorem failsOnly_relayAll (link : Link) :
    Act.FailsOnly Failure.IsRelay (relayAll binary (started f) link) s ↔
      ∀ before pair after, link.channels = before ++ pair :: after →
        ∀ info t, relayAll binary (started f) { link with channels := before } s = .ok info t →
          AnswersBoth f binary link.chainA link.chainB pair t := by
  rw [relayAll, Act.failsOnly_foldlM]
  have hstep : ∀ (info : RelayInfo) (pair : ChannelPair) (t : σ),
      Act.FailsOnly Failure.IsRelay
        (do return info.merge (← relayChannel binary (started f) link.chainA link.chainB pair)) t ↔
      AnswersBoth f binary link.chainA link.chainB pair t := fun info pair t => by
    rw [Act.failsOnly_bind_of_forall fun _ _ => Act.failsOnly_pure _, failsOnly_relayChannel]
  simp only [hstep]
  rfl

/-- Hermes, all of whose runs start, fails with relay failures only, and tells whether it is
healthy, exactly as long as it speaks and its events can be read. -/
theorem failsOnly_relay_iff (f : List Text → σ → ProcessResult × σ) (binary : Text) (s : σ)
    (a b : ChainDefinition) (link : Link) (side : Side) (portA portB : Text) (order : Order)
    (version : Text) :
    (Act.FailsOnly Failure.IsRelay (createConnection binary (started f) a b) s ↔
        Speaks f binary (connectionCommand a b) s) ∧
      (Act.FailsOnly Failure.IsRelay
          (createChannel binary (started f) link side portA portB order version) s ↔
        Speaks f binary (channelCommand link side portA portB order version) s) ∧
      (Act.FailsOnly Failure.IsRelay (relayAll binary (started f) link) s ↔
        ∀ before pair after, link.channels = before ++ pair :: after →
          ∀ info t, relayAll binary (started f) { link with channels := before } s = .ok info t →
            AnswersBoth f binary link.chainA link.chainB pair t) ∧
      ((∃ ready t, isReady binary (started f) s = .ok ready t) ↔
        Speaks f binary [.str "health-check"] s) :=
  ⟨failsOnly_createConnection a b, failsOnly_createChannel link side portA portB order version,
    failsOnly_relayAll link, isReady_ok_iff⟩

end Relays

/-- A link with one channel. -/
def oneChannel : Link where
  chainA := Settings.localChain (fun _ => none) "localhost" "a" "chain-a" "A" "1" "2"
  chainB := Settings.localChain (fun _ => none) "localhost" "b" "chain-b" "B" "3" "4"
  connectionA := .str "connection-0"
  connectionB := .str "connection-0"
  channels := [⟨⟨"transfer", .str "channel-0"⟩, ⟨"transfer", .str "channel-0"⟩⟩]

/-- Hermes tells of an acknowledgement with a number that is no byte. -/
def tellsNoByte : List Text → Unit → ProcessResult × Unit := fun _ s =>
  (⟨0, "\x7b\"result\":[\x7b\"WriteAcknowledgement\":\x7b\"ack\":[300]\x7d\x7d]\x7d", []⟩, s)

/-- What Hermes tells of, as a value. -/
def noByteEvents : Json := .arr [.obj [("WriteAcknowledgement", .obj [("ack", .arr [.int 300])])]]

set_option maxRecDepth 4000 in
theorem result_tellsNoByte (line : List Text) :
    (tellsNoByte line ()).1.result = .ok noByteEvents := by
  cbv

theorem findEvents_noByteEvents :
    findEvents "WriteAcknowledgement" noByteEvents =
      ([[(text "ack", .arr [.int 300])]] : List (Table Json)) := rfl

/-- A list of numbers of which one is no byte is a wrong value, and no failure of the relayer. -/
theorem not_failsOnly_relay :
    ¬ Act.FailsOnly Failure.IsRelay (relayAll "hermes" (started tellsNoByte) oneChannel) () := by
  intro h
  have hanswers := ((failsOnly_relayAll oneChannel).1 h [] _ [] rfl {} () rfl).fromA
  obtain ⟨words, hwords, -⟩ := hanswers.delivers
  have horderly := hanswers.events _ () (by rw [hwords, command_run, result_tellsNoByte]; rfl)
  rw [findEvents_noByteEvents] at horderly
  rcases horderly [] _ [] rfl nofun with hunknown | ⟨hack, -⟩
  · exact hunknown
  · obtain ⟨n, hn, -, hsmall⟩ := hack (.int 300) List.mem_cons_self
    cases hn
    exact absurd hsmall (by decide)

end Hermes

end CrossChain
