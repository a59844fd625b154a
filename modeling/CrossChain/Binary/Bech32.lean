import CrossChain.Text.Basic

/-!
# Bech32 addresses

An account address is written as a prefix, a `1`, the address in groups of five bits, and a checksum
of six groups over all of it.
-/

namespace CrossChain

namespace Bech32

/-- The 32 characters of the groups. -/
def charset : Text := "qpzry9x8gf2tvdw0s3jn54khce6mua7l"

/-- The generator of the checksum code, one entry for each of the five top bits. -/
def generator : List Nat := [0x3b6a57b2, 0x26508e6d, 0x1ea119fa, 0x3d4233dd, 0x2a1462b3]

/-- The checksum state after one more value. -/
def step (state value : Nat) : Nat :=
  let top := state >>> 25
  (generator.zipIdx).foldl (fun s g => if top.testBit g.2 then s ^^^ g.1 else s)
    (((state &&& 0x1ffffff) <<< 5) ^^^ value)

/-- The checksum state of values. -/
def polymod (values : List Nat) : Nat := values.foldl step 1

/-- The values of a prefix: the high bits of its characters, a zero, and the low bits. -/
def expandPrefix (hrp : Text) : List Nat :=
  hrp.map (fun c => c.val / 32) ++ 0 :: hrp.map (fun c => c.val % 32)

/-- The checksum groups of a prefix and its data. -/
def checksum (hrp : Text) (groups : List Nat) : List Nat :=
  let state := polymod (expandPrefix hrp ++ groups ++ List.replicate 6 0) ^^^ 1
  [25, 20, 15, 10, 5, 0].map fun shift => (state >>> shift) % 32

/-- Bytes in groups of five bits, the last one filled with zeros.  `bits` of `value` are left. -/
def toGroups (value bits : Nat) : List UInt8 → List Nat
  | [] => if bits = 0 then [] else [value * Nat.pow 2 (5 - bits) % 32]
  | b :: rest =>
    let value := value * 256 + b.toNat
    let bits := bits + 8
    if bits < 10 then
      value / Nat.pow 2 (bits - 5) % 32 :: toGroups (value % Nat.pow 2 (bits - 5)) (bits - 5) rest
    else
      value / Nat.pow 2 (bits - 5) % 32 :: value / Nat.pow 2 (bits - 10) % 32 ::
        toGroups (value % Nat.pow 2 (bits - 10)) (bits - 10) rest

/-- Whether groups of five bits are whole bytes with fewer than five zero bits after them. -/
def areBytes (groups : List Nat) : Bool :=
  let bits := 5 * groups.length % 8
  bits < 5 && (groups.getLast?.getD 0) % Nat.pow 2 bits == 0

/-- The address of twenty bytes under a prefix; other lengths have none. -/
def encode? (hrp : Text) (bytes : List UInt8) : Option Text :=
  if bytes.length = 20 then
    let groups := toGroups 0 0 bytes
    some (hrp ++ 49 :: (groups ++ checksum hrp groups).map fun g => charset.getD g 113)
  else none

/-- Whether a text is an address: printable characters in one case, a separator with a prefix before
it and six characters after it, a right checksum, and whole bytes. -/
def isAddress (s : Text) : Bool :=
  let lower := s.map CodePoint.toAsciiLower
  let data := Text.afterLast 49 lower
  let hrp := lower.take (lower.length - data.length - 1)
  let groups := data.filterMap fun c => charset.idxOf? c
  s.all (fun c => 33 ≤ c.val && c.val ≤ 126) &&
    (lower == s || s.map CodePoint.toAsciiUpper == s) &&
    s.contains 49 && 1 ≤ hrp.length && hrp.length ≤ 83 && 6 ≤ data.length &&
    groups.length == data.length &&
    polymod (expandPrefix hrp ++ groups) == 1 && areBytes (groups.take (groups.length - 6))

end Bech32

end CrossChain
