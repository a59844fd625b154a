import CrossChain.Envelope
import CrossChain.Proofs.Binary.Base64
import CrossChain.Proofs.Json.RoundTrip
import CrossChain.Proofs.Json.Writing

/-!
# Binary bodies that are written and read back

A value becomes a binary field through two codecs, compact JSON and base64, and comes back the same
through both (`BinaryBody.decode_wrap`).  A routed message has such a field for its call exactly
where there is something to call (`RoutedMessage.call_roundTrip`).
-/

namespace CrossChain

namespace BinaryBody

theorem encode_of_isWritable {v : Json} (h : v.isWritable = true) : encode v = .ok (wrap v) :=
  if_pos h

theorem decode_wrap [Json.Limits] {v : Json} (hreadable : v.Readable Json.maxDepth)
    (hplain : v.Plain) : decode (wrap v) = .ok v := by
  have hascii : (wrap v).all CodePoint.isAscii = true :=
    List.all_eq_true.2 (Base64.written_encode _).isAscii
  have hbytes : Base64.decode (wrap v) = .ok (v.compact.flatMap Utf8.encodePoint) :=
    Base64.decode_encode _
  have hread : Json.read v.compact = .ok v := by
    rw [Json.read_compact hreadable, Json.joined_of_plain v hplain]
  rw [decode, hascii, hbytes]
  simp only [Except.mapError, bind, Except.bind,
    Json.ofUtf8_visible (Json.visible_compact hreadable), Json.parse, hread]
  rfl

theorem wrap_ne_nil {v : Json} {room : Nat} (h : v.Readable room) : wrap v ≠ [] := by
  obtain ⟨c, s, hprint, -⟩ := Json.print_head .tight h 0
  have hcompact : v.compact = c :: s := by rw [← Json.Layout.print_tight v 0, hprint]
  rw [wrap, hcompact, ne_eq, Base64.encode_eq_nil, List.flatMap_cons]
  exact List.append_ne_nil_of_left_ne_nil (Utf8.encodePoint_ne_nil c) _

end BinaryBody

/-! ## Values that say nothing -/

/-- The values that call nothing. -/
def Json.nothings : List Json := [.null, .bool false, .int 0, .str [], .arr [], .obj []]

theorem Json.isEmpty_iff {v : Json} {room : Nat} (h : v.Readable room) :
    v.isEmpty = true ↔ v ∈ nothings := by
  cases v with
  | null => simp [isEmpty, nothings]
  | bool b => cases b <;> simp [isEmpty, nothings]
  | int n => simp [isEmpty, nothings]
  | float x => exact h.elim
  | str s | arr items | obj members => simp [isEmpty, nothings]

/-! ## Calls -/

namespace RoutedMessage

/-- The call of a value is empty just where the value says nothing, and else the value comes back
from it. -/
theorem callOf_of_readable [Json.Limits] {v : Json} (hreadable : v.Readable Json.maxDepth)
    (hplain : v.Plain) :
    ∃ call, callOf v = .ok call ∧ (call = [] ↔ v ∈ Json.nothings) ∧
      (v ∉ Json.nothings → call ≠ [] ∧ Base64.Written call ∧ BinaryBody.decode call = .ok v) := by
  have hsome := BinaryBody.wrap_ne_nil hreadable
  rw [← Json.isEmpty_iff hreadable, callOf,
    BinaryBody.encode_of_isWritable (Json.isWritable_of_readable v hreadable)]
  cases v.isEmpty with
  | true => exact ⟨[], rfl, iff_of_true rfl rfl, fun h => absurd rfl h⟩
  | false =>
    exact ⟨_, rfl, iff_of_false hsome Bool.false_ne_true,
      fun _ => ⟨hsome, Base64.written_encode _, BinaryBody.decode_wrap hreadable hplain⟩⟩

/-- A body that has a call makes a message, unless something else than coins is given. -/
theorem routed_of_callOf {body : Json} {call : Text} (h : callOf body = .ok call) (recipient : Text)
    (given : List GivenCoin) (recovery : Option RecoveryConfig) :
    routed recipient body given recovery = (Funds.read given).map fun coins =>
      { recipient, call, funds := coins, config := { recovery } } := by
  rw [routed, h]
  cases Funds.read given <;> rfl

/-- A value comes back from its binary form.  The message that is made of it carries no call just
where the value says nothing, and else a text in base64 from which the value comes back. -/
theorem call_roundTrip [Json.Limits] (v : Json) (hreadable : v.Readable Json.maxDepth)
    (hplain : v.Plain) :
    (∃ binary, BinaryBody.encode v = .ok binary ∧ BinaryBody.decode binary = .ok v) ∧
      ∃ call : Text, (call = [] ↔ v ∈ Json.nothings) ∧
        (v ∉ Json.nothings →
          call ≠ [] ∧ Base64.Written call ∧ BinaryBody.decode call = .ok v) ∧
        ∀ (recipient : Text) (given : List GivenCoin) (recovery : Option RecoveryConfig),
          routed recipient v given recovery = (Funds.read given).map fun coins =>
            { recipient, call, funds := coins, config := { recovery } } := by
  have hwritable := Json.isWritable_of_readable v hreadable
  obtain ⟨call, hcall, hnone, hsome⟩ := callOf_of_readable hreadable hplain
  exact ⟨⟨_, BinaryBody.encode_of_isWritable hwritable, BinaryBody.decode_wrap hreadable hplain⟩,
    call, hnone, hsome, routed_of_callOf hcall⟩

/-- A call with a code point that takes two escapes, a half of a pair that stands alone, a negative
integer, and names in no order. -/
def nestedCall : Json :=
  .obj [("send", .obj []), ("a", .arr [.int (-12), .str [0x1F600, 0xD83D, 34], .null])]

theorem call_roundTrip_nestedCall :
    ∃ m, routed "ibc://b/x" nestedCall [.coin ⟨"5", .str "uosmo"⟩] none = .ok m ∧
      BinaryBody.decode m.call = .ok nestedCall := by
  have hshort : Json.Short (-12) := by decide
  have hunpaired : Text.Unpaired [0x1F600, 0xD83D, 34] := by decide
  have hreadable : nestedCall.Readable Json.maxDepth :=
    ⟨by decide, ⟨by decide, trivial⟩, ⟨by decide, hshort, trivial, trivial, trivial⟩, trivial⟩
  have hplain : nestedCall.Plain :=
    ⟨by decide, by decide, ⟨by decide, trivial⟩, by decide, ⟨trivial, hunpaired, trivial, trivial⟩,
      trivial⟩
  have hcalls : nestedCall ∉ Json.nothings := by simp [nestedCall, Json.nothings]
  obtain ⟨-, call, -, hcall, hrouted⟩ := call_roundTrip nestedCall hreadable hplain
  exact ⟨_, hrouted _ _ _, (hcall hcalls).2.2⟩

end RoutedMessage

end CrossChain
