import CrossChain.Message
import CrossChain.Proofs.Json.Agreement

/-!
# The wire form loses nothing

Messages whose objects agree are the same message (`ContractMessage.wire_faithful`), and so it is
with what messages are made of: coins, configurations, packets, and the recipients of a splitter.
Every object is written by its fields, of which some may be absent (`Json.present`), so that a field
left out is told apart from every value that it may have.  Fields that can hold any value are texts
in messages with well-formed parts, which is what `Typed` says.
-/

namespace CrossChain

/-! ## Coins -/

/-- A coin whose denomination is a text. -/
def Coin.Typed (c : Coin) : Prop := ∃ denom : Text, c.denom = .str denom

theorem Coin.agrees_toJson {c d : Coin} (hc : c.Typed) (hd : d.Typed) :
    c.toJson.agrees d.toJson = true ↔ c = d := by
  have hfields (c : Coin) : c.toJson =
      .obj (Json.present ["amount", "denom"] [some (.str c.amount), some c.denom]) := rfl
  rw [hfields, hfields, Json.agrees_obj_present (by decide) rfl rfl]
  obtain ⟨amount, _⟩ := c
  obtain ⟨amount', _⟩ := d
  obtain ⟨denom, rfl⟩ := hc
  obtain ⟨denom', rfl⟩ := hd
  simp [Json.agrees_str]

/-! ## Configurations -/

theorem RecoveryConfig.agrees_toJson {c d : RecoveryConfig} :
    c.toJson.agrees d.toJson = true ↔ c = d := by
  have hfields (c : RecoveryConfig) : c.toJson =
      .obj (Json.present ["recovery_addr"] [c.address.map .str]) := by
    obtain ⟨_ | address⟩ := c <;> rfl
  rw [hfields, hfields, Json.agrees_obj_present (by decide) rfl rfl]
  obtain ⟨address⟩ := c
  obtain ⟨address'⟩ := d
  simp [Json.agreeing_map, Json.agrees_str]

theorem ReplyOn.name_inj {r s : ReplyOn} : r.name = s.name ↔ r = s := by
  cases r <;> cases s <;> decide

theorem MessageConfig.agrees_toJson {c d : MessageConfig} :
    c.toJson.agrees d.toJson = true ↔ c = d := by
  have hfields (c : MessageConfig) : c.toJson = .obj (Json.present
      ["reply_on", "exit_at_error", "direct", "gas_limit", "ibc_config"]
      [some (.str c.replyOn.name), some (.bool c.exitAtError), some (.bool c.direct),
        c.gasLimit.map .int, c.recovery.map RecoveryConfig.toJson]) := by
    obtain ⟨replyOn, exitAtError, direct, _ | gasLimit, _ | recovery⟩ := c <;> rfl
  rw [hfields, hfields, Json.agrees_obj_present (by decide) rfl rfl]
  obtain ⟨replyOn, exitAtError, direct, gasLimit, recovery⟩ := c
  obtain ⟨replyOn', exitAtError', direct', gasLimit', recovery'⟩ := d
  simp [Json.agreeing_map, Json.agrees_str, Json.agrees_bool, Json.agrees_int,
    RecoveryConfig.agrees_toJson, ReplyOn.name_inj]

/-! ## Routed messages and packets -/

/-- A message whose funds are coins with texts for denominations. -/
def RoutedMessage.Typed (m : RoutedMessage) : Prop := ∀ c ∈ m.funds, c.Typed

theorem RoutedMessage.agrees_toJson {m n : RoutedMessage} (hm : m.Typed) (hn : n.Typed) :
    m.toJson.agrees n.toJson = true ↔ m = n := by
  have hfields (m : RoutedMessage) : m.toJson = .obj (Json.present
      ["recipient", "message", "funds", "config"]
      [some (.str m.recipient), some (.str m.call), some (.arr (m.funds.map Coin.toJson)),
        some m.config.toJson]) := rfl
  have hfunds : (Json.arr (m.funds.map Coin.toJson)).agrees
      (.arr (n.funds.map Coin.toJson)) = true ↔ m.funds = n.funds :=
    Json.agrees_arr_map fun c hc d hd => Coin.agrees_toJson (hm c hc) (hn d hd)
  rw [hfields, hfields, Json.agrees_obj_present (by decide) rfl rfl]
  obtain ⟨recipient, call, funds, config⟩ := m
  obtain ⟨recipient', call', funds', config'⟩ := n
  simp [Json.agrees_str, hfunds, MessageConfig.agrees_toJson]

/-- A packet of messages with well-formed parts. -/
def Packet.Typed (p : Packet) : Prop := ∀ m ∈ p.messages, m.Typed

theorem Packet.agrees_toJson {p q : Packet} (hp : p.Typed) (hq : q.Typed) :
    p.toJson.agrees q.toJson = true ↔ p = q := by
  have hfields (p : Packet) : p.toJson = .obj (Json.present ["messages", "ctx"]
      [some (.arr (p.messages.map RoutedMessage.toJson)),
        some (.obj (Json.present ["origin", "previous_sender", "id"]
          [some (.str p.origin.origin), some (.str p.origin.previousSender),
            some (.int p.origin.id)]))]) := rfl
  have hmessages : (Json.arr (p.messages.map RoutedMessage.toJson)).agrees
      (.arr (q.messages.map RoutedMessage.toJson)) = true ↔ p.messages = q.messages :=
    Json.agrees_arr_map fun m hm n hn => RoutedMessage.agrees_toJson (hp m hm) (hq n hn)
  rw [hfields, hfields, Json.agrees_obj_present (by decide) rfl rfl, List.forall₂_cons,
    List.forall₂_cons, Json.agreeing_some, Json.agreeing_some,
    Json.agrees_obj_present (by decide) rfl rfl, hmessages]
  obtain ⟨messages, origin, previousSender, id⟩ := p
  obtain ⟨messages', origin', previousSender', id'⟩ := q
  simp [Json.agrees_str, Json.agrees_int]

/-! ## Recipients of a splitter -/

theorem SplitterRecipient.agrees_toJson {r s : SplitterRecipient} :
    r.toJson.agrees s.toJson = true ↔ r = s := by
  have hfields (r : SplitterRecipient) : r.toJson = .obj (Json.present ["recipient", "percent"]
      [some (.obj (Json.present ["address", "msg", "ibc_recovery_address"]
          [some (.str r.address), r.call.map .str, r.recoveryAddress.map .str])),
        some (.str r.percent)]) := by
    obtain ⟨address, _ | call, _ | recoveryAddress, percent⟩ := r <;> rfl
  rw [hfields, hfields, Json.agrees_obj_present (by decide) rfl rfl, List.forall₂_cons,
    Json.agreeing_some, Json.agrees_obj_present (by decide) rfl rfl]
  obtain ⟨address, call, recoveryAddress, percent⟩ := r
  obtain ⟨address', call', recoveryAddress', percent'⟩ := s
  simp [Json.agreeing_map, Json.agrees_str, and_assoc]

theorem Instantiation.agrees_splitter {kernel kernel' : Text}
    {recipients recipients' : List SplitterRecipient} :
    (splitter (.str kernel) recipients).toJson.agrees
        (splitter (.str kernel') recipients').toJson = true ↔
      kernel = kernel' ∧ recipients = recipients' := by
  have hfields (kernel : Text) (recipients : List SplitterRecipient) :
      (splitter (.str kernel) recipients).toJson =
        .obj (Json.present ["kernel_address", "recipients"]
          [some (.str kernel), some (.arr (recipients.map SplitterRecipient.toJson))]) := rfl
  rw [hfields, hfields, Json.agrees_obj_present (by decide) rfl rfl]
  simp [Json.agrees_str, Json.agrees_arr_map, SplitterRecipient.agrees_toJson]

/-! ## Contract messages -/

namespace ContractMessage

/-- A message with well-formed parts.  A channel may be missing, which it says with a null. -/
def Typed : ContractMessage → Prop
  | send m => m.Typed
  | receive p => p.Typed
  | assignChannels ics20 kernel _ direct =>
    (∃ channel : Option Text, ics20 = .ofText? channel) ∧
      (∃ address : Text, kernel = .str address) ∧
        ∃ channel : Option Text, direct = .ofText? channel
  | upsertKeyAddress _ value => ∃ address : Text, value = .str address
  | recoveries owner => ∃ address : Text, owner = .str address
  | recover | keyAddress _ | channelInfo _ | publish .. | codeId _ => True

/-- Objects with one and the same member, a text. -/
theorem agrees_named {name s t : Text} :
    (Json.obj [(name, .str s)]).agrees (.obj [(name, .str t)]) = true ↔ s = t := by
  rw [← Json.single, ← Json.single, Json.agrees_single, Json.agrees_str, and_iff_right rfl]

/-- Messages of one kind are told apart by what they say. -/
theorem agrees_body {m n : ContractMessage} (hm : m.Typed) (hn : n.Typed) (htag : m.tag = n.tag) :
    m.body.agrees n.body = true ↔ m = n := by
  cases m with
  | send m =>
    cases n with
    | send n =>
      rw [body, body, ← Json.single, ← Json.single, Json.agrees_single, and_iff_right rfl,
        RoutedMessage.agrees_toJson hm hn, send.injEq]
    | _ => exact absurd htag (by simp only [tag]; decide)
  | receive p =>
    cases n with
    | receive q => rw [body, body, Packet.agrees_toJson hm hn, receive.injEq]
    | _ => exact absurd htag (by simp only [tag]; decide)
  | recover =>
    cases n with
    | recover => exact iff_of_true (by decide) rfl
    | _ => exact absurd htag (by simp only [tag]; decide)
  | assignChannels ics20 kernel chain direct =>
    cases n with
    | assignChannels ics20' kernel' chain' direct' =>
      have hfields (ics20 kernel direct : Json) (chain : Text) :
          (assignChannels ics20 kernel chain direct).body = .obj (Json.present
            ["ics20_channel_id", "kernel_address", "chain", "direct_channel_id"]
            [some ics20, some kernel, some (.str chain), some direct]) := rfl
      rw [hfields, hfields, Json.agrees_obj_present (by decide) rfl rfl]
      obtain ⟨⟨ics20, rfl⟩, ⟨kernel, rfl⟩, direct, rfl⟩ := hm
      obtain ⟨⟨ics20', rfl⟩, ⟨kernel', rfl⟩, direct', rfl⟩ := hn
      simp [Json.agrees_str, Json.agrees_ofText?, Json.ofText?_inj]
    | _ => exact absurd htag (by simp only [tag]; decide)
  | upsertKeyAddress key value =>
    cases n with
    | upsertKeyAddress key' value' =>
      have hfields (key : Text) (value : Json) : (upsertKeyAddress key value).body =
          .obj (Json.present ["key", "value"] [some (.str key), some value]) := rfl
      rw [hfields, hfields, Json.agrees_obj_present (by decide) rfl rfl]
      obtain ⟨address, rfl⟩ := hm
      obtain ⟨address', rfl⟩ := hn
      simp [Json.agrees_str]
    | _ => exact absurd htag (by simp only [tag]; decide)
  | keyAddress key =>
    cases n with
    | keyAddress key' => rw [body, body, agrees_named, keyAddress.injEq]
    | _ => exact absurd htag (by simp only [tag]; decide)
  | channelInfo chain =>
    cases n with
    | channelInfo chain' => rw [body, body, agrees_named, channelInfo.injEq]
    | _ => exact absurd htag (by simp only [tag]; decide)
  | recoveries owner =>
    cases n with
    | recoveries owner' =>
      obtain ⟨address, rfl⟩ := hm
      obtain ⟨address', rfl⟩ := hn
      rw [body, body, agrees_named, recoveries.injEq, Json.str.injEq]
    | _ => exact absurd htag (by simp only [tag]; decide)
  | publish code name version =>
    cases n with
    | publish code' name' version' =>
      have hfields (code : Int) (name version : Text) : (publish code name version).body =
          .obj (Json.present ["code_id", "ado_type", "version"]
            [some (.int code), some (.str name), some (.str version)]) := rfl
      rw [hfields, hfields, Json.agrees_obj_present (by decide) rfl rfl]
      simp [Json.agrees_str, Json.agrees_int]
    | _ => exact absurd htag (by simp only [tag]; decide)
  | codeId key =>
    cases n with
    | codeId key' => rw [body, body, agrees_named, codeId.injEq]
    | _ => exact absurd htag (by simp only [tag]; decide)

theorem agrees_toJson {m n : ContractMessage} (hm : m.Typed) (hn : n.Typed) :
    m.toJson.agrees n.toJson = true ↔ m = n := by
  rw [toJson, toJson, Json.agrees_single]
  constructor
  · rintro ⟨htag, hbody⟩
    exact (agrees_body hm hn htag).1 hbody
  · rintro rfl
    exact ⟨rfl, (agrees_body hm hn rfl).2 rfl⟩

/-- Two messages with well-formed parts go out as values that agree only if they are the same
message, and every message goes out as an object with one member.  Bodies that splitters are
instantiated with keep apart all kernels and all lists of recipients likewise. -/
theorem wire_faithful :
    (∀ m n : ContractMessage, m.Typed → n.Typed → (m.toJson.agrees n.toJson = true ↔ m = n)) ∧
      (∀ m : ContractMessage, ∃ key body,
        (Handed.message m).toJson = .ok m.toJson ∧ m.toJson = .obj [(key, body)]) ∧
      ∀ (kernel kernel' : Text) (recipients recipients' : List SplitterRecipient),
        (Instantiation.splitter (.str kernel) recipients).toJson.agrees
            (Instantiation.splitter (.str kernel') recipients').toJson = true ↔
          kernel = kernel' ∧ recipients = recipients' :=
  ⟨fun _ _ hm hn => agrees_toJson hm hn, fun m => ⟨m.tag, m.body, rfl, rfl⟩,
    fun _ _ _ _ => Instantiation.agrees_splitter⟩

/-- A call that is to be executed with these terms of recovery. -/
def callWith (recovery : Option RecoveryConfig) : ContractMessage :=
  .send { recipient := "andr1app", call := "e30=", funds := [⟨"10", .str "uandr"⟩],
          config := { gasLimit := some 0, recovery } }

/-- Terms of recovery that name nobody are told apart from none, and either from a name that is
empty. -/
theorem wire_faithful_recovery :
    (callWith none).toJson.agrees (callWith (some ⟨none⟩)).toJson = false ∧
      (callWith (some ⟨none⟩)).toJson.agrees (callWith (some ⟨some []⟩)).toJson = false := by
  have htyped (recovery : Option RecoveryConfig) : (callWith recovery).Typed := by
    intro c hc
    exact ⟨"uandr", congrArg Coin.denom (List.mem_singleton.1 hc)⟩
  have hapart {o o' : Option RecoveryConfig} (h : o ≠ o') :
      (callWith o).toJson.agrees (callWith o').toJson = false := by
    refine Bool.eq_false_iff.2 fun hagree => h ?_
    have hsame := (wire_faithful.1 _ _ (htyped o) (htyped o')).1 hagree
    injection hsame with hsame
    exact congrArg (fun m => m.config.recovery) hsame
  exact ⟨hapart (by decide), hapart (by decide)⟩

end ContractMessage

end CrossChain
