import CrossChain.Proofs.Hermes.Lines
import CrossChain.Proofs.Outcome.Written
import CrossChain.Proofs.Relay.LastSweep

/-!
# What acknowledgements say comes through hermes

Hermes prints the text of an acknowledgement as a list of its bytes, in hexadecimal, or as it is.
No text of an object is hexadecimal, so that all three spellings are told apart and give the same
bytes (`ackBytes_of_spelling`).  From a sweep that completes they come back, for every outermost
event and in document order, as acknowledgements that say what was written
(`relayAll_conveyed`).
-/

namespace CrossChain

namespace Hermes

open Json (Position OneString)

/-! ## Spellings -/

/-- Two hexadecimal digits for every byte, in either case. -/
inductive HexText : Text → List UInt8 → Prop
  | nil : HexText [] []
  | cons {c d : CodePoint} {b : UInt8} {s : Text} {bytes : List UInt8}
      (high : c.hexValue? = some (b.toNat / 16)) (low : d.hexValue? = some (b.toNat % 16))
      (rest : HexText s bytes) : HexText (c :: d :: s) (b :: bytes)

/-- The ways in which hermes spells the text of an acknowledgement: as the list of its bytes, as
their hexadecimal digits, or as it is. -/
inductive AckSpelling (s : Text) : Json → Prop
  | list {bytes : List UInt8} (h : Utf8.encode s = .ok bytes) :
      AckSpelling s (.arr (bytes.map fun b => .int b.toNat))
  | hex {bytes : List UInt8} {digits : Text} (h : Utf8.encode s = .ok bytes)
      (hdigits : HexText digits bytes) : AckSpelling s (.str digits)
  | raw : AckSpelling s (.str s)

theorem byteOf_byte (b : UInt8) : byteOf (.int b.toNat) = .ok b := by
  have hb := b.toNat_lt
  have hrange : 0 ≤ (b.toNat : Int) ∧ (b.toNat : Int) < 256 := by omega
  simp [byteOf, Json.asInt?, hrange]

theorem mapM_byteOf (bytes : List UInt8) :
    (bytes.map fun b => Json.int b.toNat).mapM byteOf = .ok bytes := by
  induction bytes with
  | nil => rfl
  | cons b bytes ih =>
    rw [List.map_cons, List.mapM_cons, byteOf_byte, ih]
    rfl

theorem not_isAsciiBlank_of_hexValue? {c : CodePoint} {n : Nat} (h : c.hexValue? = some n) :
    c.isAsciiBlank = false := by
  apply Bool.eq_false_iff.2
  intro hblank
  have hrange := CodePoint.isAsciiBlank_iff.1 hblank
  have hranges := Json.ranges_of_hexValue? h
  omega

theorem hexBytes?_of_hexText {s : Text} {bytes : List UInt8} (h : HexText s bytes) :
    hexBytes? s = some bytes := by
  induction h with
  | nil => rfl
  | @cons c d b s bytes high low rest ih =>
    have hpair : UInt8.ofNat (16 * (b.toNat / 16) + b.toNat % 16) = b := by
      rw [Nat.div_add_mod]
      exact UInt8.ofNat_toNat
    simp only [hexBytes?, not_isAsciiBlank_of_hexValue? high, Bool.false_eq_true, if_false, high,
      low, ih, Option.map_some, hpair]

theorem hexBytes?_blank {c : CodePoint} (hc : c.isAsciiBlank = true) (s : Text) :
    hexBytes? (c :: s) = hexBytes? s := by
  cases s <;> simp only [hexBytes?, hc, if_true]

theorem hexText_ofBytes (bytes : List UInt8) : HexText (Text.ofBytes bytes) bytes := by
  induction bytes with
  | nil => exact .nil
  | cons b bytes ih =>
    have hb := b.toNat_lt
    refine .cons ?_ ?_ ih
    · rw [Json.hexValue?_hexDigit, Nat.mod_eq_of_lt (by omega)]
    · exact Json.hexValue?_hexDigit b.toNat

/-- The text of an object is not hexadecimal. -/
theorem hexBytes?_of_brace {b : Text} (hb : Json.Blank b) (s : Text) :
    hexBytes? (b ++ 123 :: s) = none := by
  induction b with
  | nil => cases s <;> rfl
  | cons c b ih =>
    obtain ⟨hc, hb⟩ := List.forall_mem_cons.1 hb
    rw [List.cons_append, hexBytes?_blank (Json.isAsciiBlank_of_isSpace hc), ih hb]

theorem ackBytes_of_spelling {name value s : Text} {bytes : List UInt8} {spelled : Json}
    (h : OneString name value s) (hbytes : Utf8.encode s = .ok bytes)
    (hspelled : AckSpelling s spelled) : ackBytes spelled = .ok bytes := by
  cases hspelled with
  | list h' =>
    obtain rfl := Except.ok.inj (h'.symm.trans hbytes)
    exact mapM_byteOf _
  | hex h' hdigits =>
    obtain rfl := Except.ok.inj (h'.symm.trans hbytes)
    rw [ackBytes, hexBytes?_of_hexText hdigits]
  | raw =>
    have hhex : hexBytes? s = none := by
      obtain ⟨h₁⟩ := h
      exact hexBytes?_of_brace h₁ _
    rw [ackBytes, hhex]
    simp only [Text.toBytes, hbytes]
    rfl

/-! ## From an event to its acknowledgement -/

/-- The acknowledgement says what the event says in any spelling: of a result that was written for a
value it gives the value, and of an error the message.  Its bytes are the UTF-8 of the text. -/
structure Conveys [Json.Limits] (event : Table Json) (ack : Ack) : Prop where
  result : ∀ v : Json, v.Readable Json.maxDepth → v.Plain →
    ∃ binary, BinaryBody.encode v = .ok binary ∧ ∀ (s : Text) (spelled : Json),
      Json.ObjectText s [("result", .str binary)] →
      Table.get? "ack" event = some spelled → AckSpelling s spelled →
        ∃ bytes, Utf8.encode s = .ok bytes ∧ ack.body = .bytes bytes ∧
          ack.body.decode = .ok ⟨true, .str binary⟩ ∧ ack.body.successValue = .ok v
  error : ∀ (message s : Text) (spelled : Json), (∀ c ∈ message, c.isSurrogate = false) →
    Json.ObjectText s [("error", .str message)] →
    Table.get? "ack" event = some spelled → AckSpelling s spelled →
      ∃ bytes, Utf8.encode s = .ok bytes ∧ ack.body = .bytes bytes ∧
        ack.body.decode = .ok ⟨false, .str message⟩

section Event

variable {src dest : ChannelEnd} {event : Table Json} {ack : Ack}

theorem body_of_ackOf {bytes : List UInt8} (h : ackOf src dest event = .ok ack)
    (hbytes : ackBytes (ackIn event) = .ok bytes) : ack.body = .bytes bytes := by
  rw [ackOf_eq, hbytes] at h
  have hpacket : packetOf src dest bytes (packetIn event) = .ok ack := h
  generalize packetIn event = packet at hpacket
  cases packet with
  | obj members =>
    obtain ⟨n, -, hn⟩ := Act.except_bind_eq_ok hpacket
    cases hn
    rfl
  | _ => cases hpacket

/-- However the text of a result or an error is spelled, its bytes are those of the
acknowledgement. -/
theorem says_of_ackOf (good : Bool) {value s : Text} {spelled : Json}
    (h : ackOf src dest event = .ok ack) (hvalue : ∀ c ∈ value, c.isSurrogate = false)
    (htext : Json.ObjectText s [(AckBody.member good, .str value)])
    (hack : Table.get? "ack" event = some spelled) (hspelled : AckSpelling s spelled) :
    ∃ bytes, Utf8.encode s = .ok bytes ∧ ack.body = .bytes bytes ∧ ack.body.Says s := by
  have hcut := Json.cut_of_objectText htext
  have hencode := hcut.encode_eq_ok (AckBody.member_surrogates good) hvalue
  have hin : ackIn event = spelled := by rw [ackIn, hack, Option.getD_some]
  have hbody := body_of_ackOf h (hin ▸ ackBytes_of_spelling hcut hencode hspelled)
  exact ⟨_, hencode, hbody, hbody ▸ hencode⟩

theorem conveys_of_ackOf [Json.Limits] (h : ackOf src dest event = .ok ack) :
    Conveys event ack where
  result v hreadable hplain := by
    have hwritable := Json.isWritable_of_readable v hreadable
    refine ⟨_, BinaryBody.encode_of_isWritable hwritable, fun s spelled htext hack hspelled => ?_⟩
    obtain ⟨bytes, hencode, hbody, hsays⟩ := says_of_ackOf true h
      (BinaryBody.wrap_surrogates v) htext hack hspelled
    exact ⟨bytes, hencode, hbody, AckBody.decode_oneString true hsays htext,
      AckBody.successValue_oneString hreadable hplain hsays htext⟩
  error message s spelled hmessage htext hack hspelled := by
    obtain ⟨bytes, hencode, hbody, hsays⟩ := says_of_ackOf false h hmessage htext hack
      hspelled
    exact ⟨bytes, hencode, hbody, AckBody.decode_oneString false hsays htext⟩

end Event

/-! ## From a sweep to its acknowledgements -/

/-- If the run of the delivery told a result, the acknowledgements are those of its outermost events
in document order, and say what these say. -/
def Delivery.Conveyed [Json.Limits] {binary : Text} {src dest : ChainDefinition}
    {srcEnd destEnd : ChannelEnd} (d : Delivery binary src dest srcEnd destEnd) : Prop :=
  ∀ result, d.delivered.process.Tells result →
    ∃ ps : List Position, ps.Pairwise (· < ·) ∧
      (∀ p, p ∈ ps ↔ Outermost "WriteAcknowledgement" (none, result) p) ∧
      List.Forall₂ (fun p ack => ∃ event,
        eventAt? "WriteAcknowledgement" (none, result) p = some event ∧ Conveys event ack) ps d.acks

theorem forall₂_of_maps {α β γ : Type} {at? : α → Option β} {f : β → Except Failure γ} {as : List α}
    {bs : List β} {cs : List γ} (hat : as.map at? = bs.map some) (hf : bs.map f = cs.map .ok) :
    List.Forall₂ (fun a c => ∃ b, at? a = some b ∧ f b = .ok c) as cs := by
  induction bs generalizing as cs with
  | nil =>
    rw [List.map_eq_nil_iff.1 hat, List.map_eq_nil_iff.1 hf.symm]
    exact .nil
  | cons b bs ih =>
    obtain ⟨a, as, rfl, ha, has⟩ := List.map_eq_cons_iff.1 hat
    obtain ⟨c, cs, rfl, hc, hcs⟩ := List.map_eq_cons_iff.1 hf.symm
    exact .cons ⟨b, ha, hc.symm⟩ (ih has hcs.symm)

theorem Delivery.conveyed [Json.Limits] {binary : Text} {src dest : ChainDefinition}
    {srcEnd destEnd : ChannelEnd} (d : Delivery binary src dest srcEnd destEnd) : d.Conveyed := by
  intro result htells
  have hsame : d.delivered.result = result := htells.result_eq d.delivered.isResult
  obtain ⟨ps, hsorted, hmem, hevents⟩ := d.areWritten
  rw [hsame] at hmem hevents
  exact ⟨ps, hsorted, hmem, (forall₂_of_maps hevents d.areAcks).imp fun _ _ ⟨event, hat, hack⟩ =>
    ⟨event, hat, conveys_of_ackOf hack⟩⟩

/-- From a sweep that completes, whatever acknowledgements hermes tells of on the last line of a run
come back in either direction with what they say. -/
theorem relayAll_conveyed [Json.Limits] {σ : Type} (binary : Text)
    (run : List Text → Act σ ProcessResult) (link : Link) {s t : Logged RelayEntry σ}
    {info : RelayInfo} (h : relayAll binary (notedRun run) link s = .ok info t) :
    ∃ xs : List (Exchange binary link.chainA link.chainB),
      xs.map Exchange.pair = link.channels ∧ t.log = s.log ++ xs.flatMap Exchange.entries ∧
      (info.acksFromB = xs.flatMap fun x => x.fromA.acks) ∧
      (info.acksFromA = xs.flatMap fun x => x.fromB.acks) ∧
      ∀ x ∈ xs, x.fromA.Conveyed ∧ x.fromB.Conveyed := by
  obtain ⟨xs, hpairs, rfl, hlog⟩ := relayAll_noted h
  exact ⟨xs, hpairs, hlog, rfl, rfl, fun x _ => ⟨x.fromA.conveyed, x.fromB.conveyed⟩⟩

/-! ### A result in hexadecimal -/

/-- What a call came to. -/
def answer : Json := .obj [("ok", .arr [.int 1, .null])]

/-- The text of the acknowledgement that was written for the answer. -/
def answerText : Text := "\x7b\"result\":\"eyJvayI6WzEsbnVsbF19\"\x7d"

/-- The event of that acknowledgement. -/
def answerEvent : Table Json :=
  [("ack", .str "7b22726573756c74223a2265794a7661794936577a4573626e567362463139227d"),
    ("packet", .obj [("sequence", .int 3)])]

/-- A result that tells of the event inside another one. -/
def answerResult : Json :=
  .arr [.obj [("events", .obj [("WriteAcknowledgement", .obj answerEvent)])]]

/-- The line on which hermes tells of the event. -/
def answerLine : Text :=
  "\x7b\"status\":\"success\",\"result\":[\x7b\"events\":\x7b\"WriteAcknowledgement\":" ++
    "\x7b\"ack\":\"7b22726573756c74223a2265794a7661794936577a4573626e567362463139227d\"," ++
    "\"packet\":\x7b\"sequence\":3\x7d\x7d\x7d\x7d]\x7d"

/-- Hermes logs a line before it tells of the event. -/
def tellsAnswer : ProcessResult where
  stdout := text "waiting" ++ [10] ++ (answerLine ++ [10])

theorem tells_answer : tellsAnswer.Tells answerResult where
  code := rfl
  object := by
    have hread : Json.read answerLine =
        .ok (.obj [("status", .str "success"), ("result", answerResult)]) := by cbv
    obtain ⟨members, hobject, -, hlast⟩ := Json.objectText_of_read hread
    have hunbroken : answerLine.all (fun c => !c.isLineBreak) = true := by decide
    have hprints : PrintsLast tellsAnswer.stdout answerLine := by
      refine ⟨_, _, rfl, .inr ⟨_, rfl⟩, fun c hc => ?_, .inr rfl⟩
      simpa using List.all_eq_true.1 hunbroken c hc
    exact ⟨answerLine, members, hprints, hobject, hlast "status", hlast "result"⟩

theorem outermost_answer : Outermost "WriteAcknowledgement" (none, answerResult) [0, 0, 0] := by
  refine ⟨rfl, fun q hq hne => ?_⟩
  simp only [List.prefix_cons_iff, List.prefix_nil] at hq
  rcases hq with rfl | ⟨_, rfl, rfl | ⟨_, rfl, rfl | ⟨_, rfl, rfl⟩⟩⟩
  · rfl
  · rfl
  · rfl
  · exact absurd rfl hne

theorem answerText_written :
    Json.ObjectText answerText [("result", .str "eyJvayI6WzEsbnVsbF19")] := by
  have hname : (text "result").all Json.isPlain = true := by decide
  have hvalue : (text "eyJvayI6WzEsbnVsbF19").all Json.isPlain = true := by decide
  exact Json.objectText_plain hname hvalue

theorem answer_spelled : AckSpelling answerText
    (.str "7b22726573756c74223a2265794a7661794936577a4573626e567362463139227d") := by
  have hencode : Utf8.encode answerText = .ok (answerText.flatMap Utf8.encodePoint) := by cbv
  have hdigits : Text.ofBytes (answerText.flatMap Utf8.encodePoint) =
      text "7b22726573756c74223a2265794a7661794936577a4573626e567362463139227d" := by cbv
  exact .hex hencode (hdigits ▸ hexText_ofBytes _)

/-- A sweep over one channel, with an acknowledgement of the answer from chain B. -/
def answeredSweep : EStateM.Result Failure (Logged RelayEntry (List ProcessResult)) RelayInfo :=
  relayAll "hermes" (notedRun scripted) oneChannel
    ⟨[], [tellsAnswer, { stdout := "\x7b\x7d" }, { stdout := "\x7b\"result\":[]\x7d" }]⟩

/-- The run of hermes that an entry is about told of the answer. -/
def tellsOfAnswer : RelayEntry → Bool
  | .ran _ (.ok process) => process == tellsAnswer
  | _ => false

/-- The sweep came back with one acknowledgement from chain B, after a first run that told of the
answer. -/
def bringsAnswer : EStateM.Result Failure (Logged RelayEntry (List ProcessResult)) RelayInfo → Bool
  | .ok info t => info.acksFromB.length == 1 && t.log.head?.any tellsOfAnswer
  | .error _ _ => false

theorem relayAll_conveyed_answer :
    ∃ info t ack, answeredSweep = .ok info t ∧ info.acksFromB = [ack] ∧
      ack.body.successValue = .ok answer := by
  have hcheck : bringsAnswer answeredSweep = true := by decide +kernel
  cases hrun : answeredSweep with
  | error e t =>
    rw [hrun] at hcheck
    cases hcheck
  | ok info t =>
    obtain ⟨xs, hpairs, hlog, hacks, -, hconveyed⟩ :=
      relayAll_conveyed "hermes" scripted oneChannel hrun
    obtain ⟨x, rfl, -⟩ := List.map_eq_singleton_iff.1 hpairs
    rw [hrun] at hcheck
    obtain ⟨hlength, hprocess⟩ := Bool.and_eq_true_iff.1 hcheck
    rw [hlog] at hprocess
    have htells : x.fromA.delivered.process.Tells answerResult :=
      (beq_iff_eq.1 hprocess) ▸ tells_answer
    obtain ⟨ps, -, hmem, hall⟩ := (hconveyed x List.mem_cons_self).1 answerResult htells
    rw [List.flatMap_singleton] at hacks
    rw [hacks] at hlength
    obtain ⟨ack, hack⟩ := List.length_eq_one_iff.1 (beq_iff_eq.1 hlength)
    rw [hack] at hall hacks
    obtain ⟨p, ps, ⟨event, hat, hconveys⟩, hrest, rfl⟩ := List.forall₂_cons_right_iff.1 hall
    cases hrest
    obtain rfl := List.mem_singleton.1 ((hmem [0, 0, 0]).2 outermost_answer)
    obtain rfl : answerEvent = event := Option.some.inj hat
    have hshort : Json.Short 1 := by decide
    have hreadable : answer.Readable Json.maxDepth :=
      ⟨by decide, ⟨by decide, hshort, trivial, trivial⟩, trivial⟩
    have hplain : answer.Plain := ⟨by decide, by decide, ⟨trivial, trivial, trivial⟩, trivial⟩
    obtain ⟨binary, hbinary, hresult⟩ := hconveys.result answer hreadable hplain
    have hencode : BinaryBody.encode answer = .ok "eyJvayI6WzEsbnVsbF19" := by cbv
    obtain rfl := Except.ok.inj (hencode.symm.trans hbinary)
    obtain ⟨-, -, -, -, hvalue⟩ := hresult answerText _ answerText_written rfl answer_spelled
    exact ⟨info, t, ack, rfl, hacks, hvalue⟩

end Hermes

end CrossChain
