import CrossChain.Binary.Base64

/-!
# Base64 that is written and read back

Bytes that were written are read back, whichever of the three ways their last group is filled up
(`decode_encode`).  What is written has nothing but characters of the alphabet, filled up to whole
groups of four (`written_encode`).
-/

namespace CrossChain

namespace Base64

/-! ## Digits -/

theorem digit_mod (n : Nat) : digit (n % 64) = digit n := by
  rw [digit, digit, Nat.mod_mod]

theorem value?_digit (n : Nat) : value? (digit n) = some (n % 64) := by
  have h : ∀ k < 64, value? (digit k) = some k := by decide +kernel
  rw [← digit_mod]
  exact h (n % 64) (Nat.mod_lt n (by decide))

theorem digit_mem_alphabet (n : Nat) : digit n ∈ alphabet := by
  have h : ∀ k < 64, digit k ∈ alphabet := by decide +kernel
  rw [← digit_mod]
  exact h (n % 64) (Nat.mod_lt n (by decide))

theorem digit_ne_pad (n : Nat) : digit n ≠ 61 := by
  have h : (61 : CodePoint) ∉ alphabet := by decide
  exact fun hn => h (hn ▸ digit_mem_alphabet n)

/-! ## Reading a group -/

section Groups

variable (done : Nat) {a b c d : Nat} (rest : Text)

theorem decodeFrom_first :
    decodeFrom done .empty (digit a :: rest) = decodeFrom done (.one (a % 64)) rest := by
  simp only [decodeFrom, if_neg (digit_ne_pad a), value?_digit]

theorem decodeFrom_second (bits : Nat) :
    decodeFrom done (.one bits) (digit b :: rest) =
      (decodeFrom (done + 1) (.two (b % 64 % 16) 0) rest).map
        ((bits * 4 + b % 64 / 16).toUInt8 :: ·) := by
  simp only [decodeFrom, if_neg (digit_ne_pad b), value?_digit]

theorem decodeFrom_third (bits : Nat) :
    decodeFrom done (.two bits 0) (digit c :: rest) =
      (decodeFrom (done + 1) (.three (c % 64 % 4)) rest).map
        ((bits * 16 + c % 64 / 4).toUInt8 :: ·) := by
  simp only [decodeFrom, if_neg (digit_ne_pad c), value?_digit]

theorem decodeFrom_fourth (bits : Nat) :
    decodeFrom done (.three bits) (digit d :: rest) =
      (decodeFrom (done + 1) .empty rest).map ((bits * 64 + d % 64).toUInt8 :: ·) := by
  simp only [decodeFrom, if_neg (digit_ne_pad d), value?_digit]

end Groups

/-! ## The bytes of a group -/

section Bytes

variable (x y z : UInt8)

theorem first_byte : (x.toNat / 4 % 64 * 4 + (x.toNat % 4 * 16 + y.toNat / 16) % 64 / 16).toUInt8 =
    x := by
  have hx := x.toNat_lt
  have hy := y.toNat_lt
  have hnat : x.toNat / 4 % 64 * 4 + (x.toNat % 4 * 16 + y.toNat / 16) % 64 / 16 = x.toNat := by
    omega
  rw [hnat]
  exact UInt8.ofNat_toNat

theorem second_byte : ((x.toNat % 4 * 16 + y.toNat / 16) % 64 % 16 * 16 +
    (y.toNat % 16 * 4 + z.toNat / 64) % 64 / 4).toUInt8 = y := by
  have hy := y.toNat_lt
  have hz := z.toNat_lt
  have hnat : (x.toNat % 4 * 16 + y.toNat / 16) % 64 % 16 * 16 +
      (y.toNat % 16 * 4 + z.toNat / 64) % 64 / 4 = y.toNat := by
    omega
  rw [hnat]
  exact UInt8.ofNat_toNat

theorem third_byte : ((y.toNat % 16 * 4 + z.toNat / 64) % 64 % 4 * 64 +
    z.toNat % 64 % 64).toUInt8 = z := by
  have hz := z.toNat_lt
  have hnat : (y.toNat % 16 * 4 + z.toNat / 64) % 64 % 4 * 64 + z.toNat % 64 % 64 = z.toNat := by
    omega
  rw [hnat]
  exact UInt8.ofNat_toNat

end Bytes

/-! ## The round trip -/

/-- Bytes that were written are read back, however many were read before. -/
theorem decodeFrom_encode (bytes : List UInt8) :
    ∀ done, decodeFrom done .empty (encode bytes) = .ok bytes := by
  induction bytes using encode.induct with
  | case1 => exact fun _ => rfl
  | case2 x =>
    intro done
    have hx := first_byte x 0
    simp only [UInt8.toNat_zero, Nat.zero_div, Nat.add_zero] at hx
    rw [encode, decodeFrom_first, decodeFrom_second, hx]
    rfl
  | case3 x y =>
    intro done
    have hy := second_byte x y 0
    simp only [UInt8.toNat_zero, Nat.zero_div, Nat.add_zero] at hy
    rw [encode, decodeFrom_first, decodeFrom_second, decodeFrom_third, first_byte, hy]
    rfl
  | case4 x y z rest ih =>
    intro done
    rw [encode, decodeFrom_first, decodeFrom_second, decodeFrom_third, decodeFrom_fourth, ih,
      first_byte, second_byte, third_byte]
    rfl

theorem decode_encode (bytes : List UInt8) : decode (encode bytes) = .ok bytes :=
  decodeFrom_encode bytes 0

/-! ## What is written -/

/-- Characters of the alphabet, filled up with at most two equals signs to groups of four. -/
structure Written (s : Text) : Prop where
  whole : 4 ∣ s.length
  filled : ∃ data pads, s = data ++ List.replicate pads 61 ∧ pads ≤ 2 ∧ ∀ c ∈ data, c ∈ alphabet

theorem Written.append {s t : Text} (hs : ∀ c ∈ s, c ∈ alphabet) (hwhole : 4 ∣ s.length)
    (ht : Written t) : Written (s ++ t) := by
  obtain ⟨data, pads, rfl, hpads, hdata⟩ := ht.filled
  refine ⟨?_, s ++ data, pads, (List.append_assoc ..).symm, hpads, ?_⟩
  · rw [List.length_append]
    exact Nat.dvd_add hwhole ht.whole
  · exact fun c hc => (List.mem_append.1 hc).elim (hs c) (hdata c)

theorem written_encode (bytes : List UInt8) : Written (encode bytes) := by
  induction bytes using encode.induct with
  | case1 => exact ⟨⟨0, rfl⟩, [], 0, rfl, by decide, nofun⟩
  | case2 x =>
    refine ⟨⟨1, rfl⟩, [_, _], 2, rfl, by decide, ?_⟩
    simp only [List.forall_mem_cons, digit_mem_alphabet, true_and]
    exact nofun
  | case3 x y =>
    refine ⟨⟨1, rfl⟩, [_, _, _], 1, rfl, by decide, ?_⟩
    simp only [List.forall_mem_cons, digit_mem_alphabet, true_and]
    exact nofun
  | case4 x y z rest ih =>
    refine Written.append (s := [_, _, _, _]) ?_ ⟨1, rfl⟩ ih
    simp only [List.forall_mem_cons, digit_mem_alphabet, true_and]
    exact nofun

theorem Written.isAscii {s : Text} (h : Written s) : ∀ c ∈ s, c.isAscii = true := by
  have halphabet : alphabet.all CodePoint.isAscii = true := by decide +kernel
  obtain ⟨data, pads, rfl, -, hdata⟩ := h.filled
  intro c hc
  rcases List.mem_append.1 hc with hc | hc
  · exact List.all_eq_true.1 halphabet c (hdata c hc)
  · rw [List.eq_of_mem_replicate hc]
    rfl

theorem encode_eq_nil {bytes : List UInt8} : encode bytes = [] ↔ bytes = [] := by
  match bytes with
  | [] => exact iff_of_true rfl rfl
  | [x] | [x, y] | x :: y :: z :: rest => exact iff_of_false nofun nofun

end Base64

end CrossChain
