import CrossChain.Denom
import CrossChain.Proofs.Json.Strings
import CrossChain.Proofs.Text.Cutting
import CrossChain.Proofs.Text.Utf8

/-!
# Traces and vouchers

A trace of many hops is the trace of the outer hops over that of the inner ones (`trace_append`),
and the trace of one hop comes apart again at its first two slashes (`oneHop_inj`).  A voucher is
`ibc/` with 64 upper-case hexadecimal digits (`isVoucher_ofTrace`); two traces share one only if
SHA-256 does not tell their bytes apart (`ofTrace_inj`).
-/

namespace CrossChain

/-! ## Bytes in hexadecimal -/

/-- The hexadecimal digits in upper case. -/
def CodePoint.isUpperHex (c : CodePoint) : Bool :=
  48 ≤ c.val && c.val ≤ 57 || 65 ≤ c.val && c.val ≤ 70

namespace Text

/-- A digit in upper case has the value that it has in lower case. -/
theorem upper_hexDigit (n : Nat) : (hexDigit n).toAsciiUpper.hexValue? = some (n % 16) ∧
    (hexDigit n).toAsciiUpper.isUpperHex = true := by
  have h : ∀ k < 16, (CodePoint.ofChar (Nat.digitChar k)).toAsciiUpper.hexValue? = some k ∧
      (CodePoint.ofChar (Nat.digitChar k)).toAsciiUpper.isUpperHex = true := by decide
  exact h (n % 16) (Nat.mod_lt _ (by decide))

/-- Bytes in upper-case hexadecimal. -/
def upperHex (bytes : List UInt8) : Text := (ofBytes bytes).map CodePoint.toAsciiUpper

theorem upperHex_cons (b : UInt8) (bytes : List UInt8) :
    upperHex (b :: bytes) = (hexDigit (b.toNat / 16)).toAsciiUpper ::
      (hexDigit b.toNat).toAsciiUpper :: upperHex bytes := rfl

theorem length_upperHex (bytes : List UInt8) : (upperHex bytes).length = 2 * bytes.length := by
  induction bytes with
  | nil => rfl
  | cons b bytes ih =>
    rw [upperHex_cons, List.length_cons, List.length_cons, List.length_cons, ih]
    omega

theorem isUpperHex_of_mem_upperHex {bytes : List UInt8} :
    ∀ c ∈ upperHex bytes, c.isUpperHex = true := by
  induction bytes with
  | nil => exact nofun
  | cons b bytes ih =>
    rw [upperHex_cons, List.forall_mem_cons, List.forall_mem_cons]
    exact ⟨(upper_hexDigit _).2, (upper_hexDigit _).2, ih⟩

theorem upperHex_inj {bytes bytes' : List UInt8} (h : upperHex bytes = upperHex bytes') :
    bytes = bytes' := by
  induction bytes generalizing bytes' with
  | nil =>
    cases bytes' with
    | nil => rfl
    | cons b' bytes' => cases h
  | cons b bytes ih =>
    cases bytes' with
    | nil => cases h
    | cons b' bytes' =>
      rw [upperHex_cons, upperHex_cons] at h
      obtain ⟨hhigh, hrest⟩ := List.cons.inj h
      obtain ⟨hlow, hrest⟩ := List.cons.inj hrest
      have hvalue {m n : Nat}
          (heq : (hexDigit m).toAsciiUpper = (hexDigit n).toAsciiUpper) : m % 16 = n % 16 := by
        have hsome := (upper_hexDigit m).1
        rw [heq, (upper_hexDigit n).1] at hsome
        exact (Option.some.inj hsome).symm
      have hb := b.toNat_lt
      have hb' := b'.toNat_lt
      have hhigh := hvalue hhigh
      have hlow := hvalue hlow
      have hbyte : b.toNat = b'.toNat := by omega
      rw [UInt8.toNat_inj.1 hbyte, ih hrest]

end Text

/-! ## Hashes -/

namespace Sha256

/-- Two different messages with one hash. -/
def Collides (m m' : List UInt8) : Prop := m ≠ m' ∧ digest m = digest m'

theorem length_bytesOf (n x : Nat) : (bytesOf n x).length = n := by
  induction n generalizing x with
  | zero => rfl
  | succ n ih => rw [bytesOf, List.length_append, ih, List.length_singleton]

theorem length_digest (message : List UInt8) : (digest message).length = 32 := by
  simp only [digest, List.flatMap_cons, List.flatMap_nil, List.length_append, length_bytesOf,
    List.length_nil]

end Sha256

/-- The bytes of a text without surrogates are those of no other such text. -/
theorem Utf8.flatMap_encodePoint_inj {s t : Text} (hs : ∀ c ∈ s, c.isSurrogate = false)
    (ht : ∀ c ∈ t, c.isSurrogate = false)
    (h : s.flatMap Utf8.encodePoint = t.flatMap Utf8.encodePoint) : s = t := by
  have hread := decode_eq_ok.2 (encode_eq_ok.2 ⟨hs, rfl⟩)
  have hread' := decode_eq_ok.2 (encode_eq_ok.2 ⟨ht, rfl⟩)
  rw [h] at hread
  exact Except.ok.inj (hread.symm.trans hread')

namespace Denom

/-! ## Traces -/

/-- A hop over a channel of a port; both have names, and there is no slash in them. -/
structure Hop where
  port : Text
  channel : Text
  port_ne_nil : port ≠ []
  channel_ne_nil : channel ≠ []
  slash_not_mem_port : 47 ∉ port
  slash_not_mem_channel : 47 ∉ channel

/-- A hop as a trace shows it. -/
def Hop.toText (hop : Hop) : Text := hop.port ++ "/" ++ hop.channel

/-- The trace of a token that took one hop. -/
def oneHop (port channel base : Text) : Text := port ++ "/" ++ channel ++ "/" ++ base

theorem afterHop_eq (port channel base : Text) :
    afterHop port channel base = ofTrace (oneHop port channel base) := rfl

theorem oneHop_eq (port channel base : Text) :
    oneHop port channel base = port ++ 47 :: (channel ++ 47 :: base) := by
  have hslash : text "/" = [47] := rfl
  simp only [oneHop, hslash, List.append_assoc, List.cons_append, List.nil_append]

theorem trace_cons (hop : Text) (hops : List Text) (base : Text) :
    trace (hop :: hops) base = hop.strip (· == 47) ++ "/" ++ trace hops base := by
  cases hops <;> rfl

/-- The inner hops and the base are a base for the outer hops. -/
theorem trace_append (outer inner : List Text) (base : Text) :
    trace (outer ++ inner) base = trace outer (trace inner base) := by
  induction outer with
  | nil => rfl
  | cons hop outer ih => rw [List.cons_append, trace_cons, trace_cons, ih]

theorem Hop.strip_toText (hop : Hop) : hop.toText.strip (· == 47) = hop.toText := by
  apply Text.strip_of_ends
  · intro c hc
    rw [toText, List.append_assoc, List.head?_append_of_ne_nil _ hop.port_ne_nil] at hc
    exact beq_false_of_ne (ne_of_mem_of_not_mem (List.mem_of_mem_head? hc) hop.slash_not_mem_port)
  · intro c hc
    rw [toText, List.getLast?_append_of_ne_nil _ hop.channel_ne_nil] at hc
    exact beq_false_of_ne
      (ne_of_mem_of_not_mem (List.mem_of_getLast? hc) hop.slash_not_mem_channel)

/-- The outermost hop is over the trace of all others. -/
theorem trace_hops (hop : Hop) (hops : List Hop) (base : Text) :
    trace ((hop :: hops).map Hop.toText) base =
      oneHop hop.port hop.channel (trace (hops.map Hop.toText) base) := by
  rw [List.map_cons, trace_cons, hop.strip_toText]
  rfl

theorem oneHop_inj {port channel base port' channel' base' : Text} (hport : 47 ∉ port)
    (hport' : 47 ∉ port') (hchannel : 47 ∉ channel) (hchannel' : 47 ∉ channel')
    (h : oneHop port channel base = oneHop port' channel' base') :
    port = port' ∧ channel = channel' ∧ base = base' := by
  rw [oneHop_eq, oneHop_eq] at h
  obtain ⟨hp, hrest⟩ := Text.append_cons_inj hport hport' h
  exact ⟨hp, Text.append_cons_inj hchannel hchannel' hrest⟩

/-! ## Vouchers -/

/-- The form of a voucher. -/
def IsVoucher (s : Text) : Prop :=
  ∃ digits : Text, s = "ibc/" ++ digits ∧ digits.length = 64 ∧ ∀ c ∈ digits, c.isUpperHex = true

/-- The bytes that are hashed for a trace. -/
def bytesOf (trace : Text) : List UInt8 := trace.flatMap Utf8.encodePoint

theorem ofTrace_of_scalars {trace : Text} (h : ∀ c ∈ trace, c.isSurrogate = false) :
    ofTrace trace = .ok ("ibc/" ++ Text.upperHex (Sha256.digest (bytesOf trace))) := by
  have hbytes : Utf8.encode trace = .ok (bytesOf trace) := Utf8.encode_eq_ok.2 ⟨h, rfl⟩
  rw [ofTrace, Text.toBytes, hbytes]
  rfl

theorem isVoucher_upperHex (message : List UInt8) :
    IsVoucher ("ibc/" ++ Text.upperHex (Sha256.digest message)) := by
  refine ⟨_, rfl, ?_, Text.isUpperHex_of_mem_upperHex⟩
  rw [Text.length_upperHex, Sha256.length_digest]

/-- Whatever comes out has the form of a voucher, and something does unless there are surrogates. -/
theorem isVoucher_ofTrace (trace : Text) :
    (∀ voucher, ofTrace trace = .ok voucher → IsVoucher voucher) ∧
      ((∀ c ∈ trace, c.isSurrogate = false) → ∃ voucher, ofTrace trace = .ok voucher) := by
  refine ⟨fun voucher h => ?_, fun h => ⟨_, ofTrace_of_scalars h⟩⟩
  rw [ofTrace] at h
  cases hbytes : trace.toBytes with
  | error e =>
    rw [hbytes] at h
    cases h
  | ok bytes =>
    rw [hbytes] at h
    cases h
    exact isVoucher_upperHex bytes

theorem ofTrace_inj {trace trace' : Text} (h : ∀ c ∈ trace, c.isSurrogate = false)
    (h' : ∀ c ∈ trace', c.isSurrogate = false)
    (hapart : ¬ Sha256.Collides (bytesOf trace) (bytesOf trace'))
    (hsame : ofTrace trace = ofTrace trace') : trace = trace' := by
  rw [ofTrace_of_scalars h, ofTrace_of_scalars h'] at hsame
  have hdigits := List.append_cancel_left (Except.ok.inj hsame)
  have hdigest := Text.upperHex_inj hdigits
  refine Utf8.flatMap_encodePoint_inj h h' ?_
  exact Decidable.byContradiction fun hne => hapart ⟨hne, hdigest⟩

/-- Traces compose over hops, so that the voucher of many hops is that of the outermost hop over the
trace of the others.  A voucher of one hop is the voucher of no other port, channel or base, unless
SHA-256 collides on the two traces.  All vouchers are `ibc/` with 64 upper-case hexadecimal digits,
and every trace without surrogates has one. -/
theorem trace_composes_and_separates :
    (∀ (outer inner : List Text) (base : Text),
      trace (outer ++ inner) base = trace outer (trace inner base)) ∧
    (∀ (hop : Hop) (hops : List Hop) (base : Text),
      ofTrace (trace ((hop :: hops).map Hop.toText) base) =
        afterHop hop.port hop.channel (trace (hops.map Hop.toText) base)) ∧
    (∀ port channel base port' channel' base' : Text, 47 ∉ port → 47 ∉ channel → 47 ∉ port' →
      47 ∉ channel' → (∀ c ∈ oneHop port channel base, c.isSurrogate = false) →
      (∀ c ∈ oneHop port' channel' base', c.isSurrogate = false) →
      ¬ Sha256.Collides (bytesOf (oneHop port channel base))
        (bytesOf (oneHop port' channel' base')) →
      afterHop port channel base = afterHop port' channel' base' →
      port = port' ∧ channel = channel' ∧ base = base') ∧
    (∀ path : Text, (∀ voucher, ofTrace path = .ok voucher → IsVoucher voucher) ∧
      ((∀ c ∈ path, c.isSurrogate = false) → ∃ voucher, ofTrace path = .ok voucher)) := by
  refine ⟨trace_append, fun hop hops base => ?_, ?_, isVoucher_ofTrace⟩
  · rw [trace_hops, afterHop_eq]
  · intro port channel base port' channel' base' hport hchannel hport' hchannel' h h' hapart hsame
    exact oneHop_inj hport hport' hchannel hchannel' (ofTrace_inj h h' hapart hsame)

/-- The voucher of `uatom` after the hop over the first channel. -/
example : (afterHop "transfer" "channel-0" "uatom").toOption =
    some (text "ibc/27394FB092D2ECCD56123C74F36E4C1F926001CEADA9CA97EA622B25F41E5EB2") := by
  decide +kernel

end Denom

end CrossChain
